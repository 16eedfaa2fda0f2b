import RulesAssist.Proofs.Symbol.Composition
import RulesAssist.Proofs.Symbol.Course

/-! Each basic type is compiled once, whatever the basic types name.

What is under way stays so until it is finished, and what is finished is never begun again. So all that ask
for a basic type and get one get the same, and share its methods and its fields.
-/

set_option autoImplicit false

namespace RulesAssist.Workshop.Course

def openings (deeds : List Deed) : List String :=
  deeds.filterMap fun
    | .opened name => some name
    | _ => none

def makings (deeds : List Deed) : List Nat :=
  deeds.filterMap fun
    | .made _ _ symbol => some symbol.identity
    | _ => none

theorem mem_openings {deeds : List Deed} {name : String} :
    name ∈ openings deeds ↔ .opened name ∈ deeds := by
  simp only [openings, List.mem_filterMap]
  constructor
  · rintro ⟨_ | _ | _, member, same⟩ <;> cases same
    exact member
  · exact fun member => ⟨_, member, rfl⟩

/-- A type has the methods of a finished basic type that it names, and its fields but for own ones. -/
structure Shares (now : Progress) (decl : TypeDecl) (basic symbol : TypeSymbol) : Prop where
  named : ∃ name, decl.basicTypeRef = some name ∧ now.finished? name = some basic
  methods : symbol.methods = basic.methods
  fields : ∀ key, decl.own? [key] = none → symbol.field? key = basic.field? key

/-- A part of a compilation leaves what is under way as it was. It begins what is neither under way nor
finished, and finishes it. Whoever is handed a basic type is handed the finished one, and each type that is
made is an object of its own. -/
structure Orderly (now : Progress) (deeds : List Deed) (later : Progress) : Prop where
  restored : later.underWay = now.underWay
  kept : ∀ name symbol, now.finished? name = some symbol → later.finished? name = some symbol
  spared : ∀ name ∈ now.underWay, later.finished? name = now.finished? name
  opened : ∀ name, .opened name ∈ deeds →
    name ∉ now.underWay ∧ now.finished? name = none ∧ (later.finished? name).isSome
  once : (openings deeds).Nodup
  answered : ∀ name symbol, .answered name (some symbol) ∈ deeds → later.finished? name = some symbol
  shared : ∀ decl basic symbol, .made decl (some basic) symbol ∈ deeds → Shares later decl basic symbol
  fresh : now.workshop.fresh ≤ later.workshop.fresh
  new : ∀ identity ∈ makings deeds, now.workshop.fresh ≤ identity ∧ identity < later.workshop.fresh
  distinct : (makings deeds).Nodup

variable {now between later : Progress} {deeds others : List Deed} {name : String} {decl : TypeDecl}
  {basic symbol : TypeSymbol} {site : Site} {inherited answer : Option TypeSymbol}

theorem Shares.mono (shares : Shares now decl basic symbol)
    (kept : ∀ name symbol, now.finished? name = some symbol → later.finished? name = some symbol) :
    Shares later decl basic symbol := by
  obtain ⟨name, named, finished⟩ := shares.named
  exact ⟨⟨name, named, kept _ _ finished⟩, shares.methods, shares.fields⟩

namespace Orderly

theorem silent (underWay : later.underWay = now.underWay)
    (basicTypes : later.workshop.basicTypes = now.workshop.basicTypes)
    (fresh : now.workshop.fresh ≤ later.workshop.fresh) : Orderly now [] later := by
  have same : ∀ name, later.finished? name = now.finished? name := fun name =>
    congrArg (·.lookup name) basicTypes
  exact ⟨underWay, fun name _ had => (same name).trans had, fun name _ => same name, nofun, List.nodup_nil,
    nofun, nofun, fresh, nofun, List.nodup_nil⟩

theorem refl (now : Progress) : Orderly now [] now :=
  .silent rfl rfl (Nat.le_refl _)

theorem trans (first : Orderly now deeds between) (second : Orderly between others later) :
    Orderly now (deeds ++ others) later where
  restored := second.restored.trans first.restored
  kept := fun name symbol had => second.kept _ _ (first.kept name symbol had)
  spared := fun name busy =>
    (second.spared name (first.restored ▸ busy)).trans (first.spared name busy)
  opened := by
    intro name member
    rcases List.mem_append.mp member with before | after
    · obtain ⟨new, missing, finished⟩ := first.opened name before
      obtain ⟨symbol, had⟩ := Option.isSome_iff_exists.mp finished
      exact ⟨new, missing, Option.isSome_iff_exists.mpr ⟨symbol, second.kept _ _ had⟩⟩
    · obtain ⟨new, missing, finished⟩ := second.opened name after
      refine ⟨first.restored ▸ new, ?_, finished⟩
      exact Option.eq_none_iff_forall_ne_some.mpr fun symbol had => by
        cases missing.symm.trans (first.kept _ _ had)
  once := by
    rw [openings, List.filterMap_append]
    refine first.once.append second.once ?_
    -- What was begun before is finished, and so it is not begun again.
    intro name before after
    obtain ⟨_, _, finished⟩ := first.opened name (mem_openings.mp before)
    obtain ⟨_, missing, _⟩ := second.opened name (mem_openings.mp after)
    rw [missing] at finished
    cases finished
  answered := by
    intro name symbol member
    rcases List.mem_append.mp member with before | after
    · exact second.kept _ _ (first.answered name symbol before)
    · exact second.answered name symbol after
  shared := by
    intro decl basic symbol member
    rcases List.mem_append.mp member with before | after
    · exact (first.shared decl basic symbol before).mono second.kept
    · exact second.shared decl basic symbol after
  fresh := first.fresh.trans second.fresh
  new := by
    intro identity member
    rw [makings, List.filterMap_append] at member
    have grows := first.fresh
    have grew := second.fresh
    rcases List.mem_append.mp member with before | after
    · have range := first.new identity before
      omega
    · have range := second.new identity after
      omega
  distinct := by
    rw [makings, List.filterMap_append]
    refine first.distinct.append second.distinct ?_
    intro identity before after
    have early := (first.new identity before).2
    have late := (second.new identity after).1
    omega

theorem onward (orderly : Orderly now deeds between) (underWay : later.underWay = between.underWay)
    (basicTypes : later.workshop.basicTypes = between.workshop.basicTypes)
    (fresh : between.workshop.fresh ≤ later.workshop.fresh) : Orderly now deeds later := by
  have whole := orderly.trans (silent underWay basicTypes fresh)
  rw [List.append_nil] at whole
  exact whole

theorem of_answer (had : ∀ symbol, answer = some symbol → now.finished? name = some symbol) :
    Orderly now [.answered name answer] now := by
  refine ⟨rfl, fun _ _ => id, fun _ _ => rfl, nofun, List.nodup_nil, ?_, nofun, Nat.le_refl _, nofun,
    List.nodup_nil⟩
  intro other symbol member
  cases List.mem_singleton.mp member
  exact had symbol rfl

theorem of_made (object : symbol.identity = now.workshop.fresh)
    (shares : ∀ basic, inherited = some basic → Shares now decl basic symbol) :
    Orderly now [.made decl inherited symbol] now.finish := by
  refine ⟨rfl, fun _ _ => id, fun _ _ => rfl, nofun, List.nodup_nil, nofun, ?_, Nat.le_succ _, ?_,
    List.nodup_singleton _⟩
  · intro other basic last member
    cases List.mem_singleton.mp member
    exact (shares basic rfl).mono fun _ _ => id
  · intro identity member
    rw [List.mem_singleton.mp member, object]
    exact ⟨Nat.le_refl _, Nat.lt_succ_self _⟩

theorem enclose (inner : Orderly (now.open name) deeds later) (missing : now.finished? name = none)
    (new : name ∉ now.underWay) (symbol : TypeSymbol) :
    Orderly now (.opened name :: deeds) (later.close name symbol) := by
  have busy : name ∈ (now.open name).underWay := Finset.mem_insert_self _ _
  have unfinished : later.finished? name = none := (inner.spared name busy).trans missing
  have here : (later.close name symbol).finished? name = some symbol := List.lookup_cons_self
  have elsewhere : ∀ other, other ≠ name →
      (later.close name symbol).finished? other = later.finished? other := fun other apart =>
    (Keyed.lookup_cons name other symbol later.workshop.basicTypes).trans (if_neg apart)
  -- Nothing was finished under the name, so nothing that was finished is lost.
  have stays : ∀ other had, later.finished? other = some had →
      (later.close name symbol).finished? other = some had := by
    intro other had finished
    refine (elsewhere other ?_).trans finished
    rintro rfl
    cases unfinished.symm.trans finished
  refine ⟨?_, fun other had finished => stays _ _ (inner.kept other had finished), ?_, ?_, ?_, ?_, ?_,
    inner.fresh, inner.new, inner.distinct⟩
  · exact (congrArg (·.erase name) inner.restored).trans (Finset.erase_insert new)
  · intro other member
    have apart : other ≠ name := by
      rintro rfl
      exact new member
    exact (elsewhere other apart).trans (inner.spared other (Finset.mem_insert_of_mem member))
  · intro other member
    rcases List.mem_cons.mp member with same | within
    · cases same
      exact ⟨new, missing, Option.isSome_iff_exists.mpr ⟨symbol, here⟩⟩
    · obtain ⟨apart, unknown, finished⟩ := inner.opened other within
      obtain ⟨had, done⟩ := Option.isSome_iff_exists.mp finished
      exact ⟨fun member => apart (Finset.mem_insert_of_mem member), unknown,
        Option.isSome_iff_exists.mpr ⟨had, stays _ _ done⟩⟩
  · -- Inside its own compilation the basic type is under way, so it is not begun there.
    exact List.nodup_cons.mpr ⟨fun again => (inner.opened name (mem_openings.mp again)).1 busy, inner.once⟩
  · intro other had member
    exact stays _ _ (inner.answered other had ((List.mem_cons.mp member).resolve_left nofun))
  · intro decl basic made member
    exact (inner.shared decl basic made ((List.mem_cons.mp member).resolve_left nofun)).mono stays

end Orderly

theorem Orderly.equip (now : Progress) (site : Site) (inherited : Option TypeSymbol)
    (methods : Option (List (String × MethodDecl))) :
    Orderly now [] (now.equip site inherited methods) :=
  have equips := equips_takeMethods site inherited methods now.workshop
  .silent rfl equips.basicTypes equips.fresh

variable {basicTypes : List (String × TypeDecl)} {own : List (String × TypeDecl)}
  {start all : List (String × TypeSymbol)} {reference : Option String}

theorem Asks.finished (asks : Asks basicTypes now name deeds answer later) :
    ∀ symbol, answer = some symbol → later.finished? name = some symbol := by
  rintro symbol rfl
  cases asks with
  | kept had => exact had
  | compiled => exact List.lookup_cons_self

theorem Draws.finished (draws : Draws basicTypes now site reference deeds inherited later) :
    ∀ basic, inherited = some basic →
      ∃ name, reference = some name ∧ later.finished? name = some basic := by
  rintro basic rfl
  cases draws with
  | drawn asks => exact ⟨_, rfl, asks.finished basic rfl⟩

theorem CompilesFields.merged (compiles : CompilesFields basicTypes now site own start deeds all later) :
    ∃ symbols, all = Keyed.merge start symbols ∧ Each (fun _ _ _ => True) symbols own := by
  induction own generalizing now start deeds with
  | nil =>
    cases compiles
    exact ⟨[], rfl, .nil⟩
  | cons entry rest ih =>
    cases compiles with
    | cons _ below =>
      obtain ⟨symbols, rfl, each⟩ := ih below
      exact ⟨(_, _) :: symbols, rfl, .cons ⟨rfl, trivial⟩ each⟩

theorem Draws.assemble {fields : Option (List (String × TypeSymbol))}
    (draws : Draws basicTypes now site decl.basicTypeRef deeds inherited between)
    (below : Orderly (between.equip site inherited decl.methods) others later)
    (composes : Composes (fun _ _ _ => True) (inherited.bind (·.fields)) decl.fields fields) :
    Orderly between (others ++ [.made decl inherited (assembled later decl
      (takeMethods site inherited decl.methods between.workshop).1 fields)]) later.finish := by
  have whole := (Orderly.equip between site inherited decl.methods).trans below
  refine whole.trans (.of_made rfl ?_)
  rintro basic rfl
  obtain ⟨name, named, finished⟩ := draws.finished basic rfl
  refine ⟨⟨name, named, whole.kept _ _ finished⟩, takeMethods_of_some .., fun key missing => ?_⟩
  rw [TypeDecl.own?_singleton] at missing
  exact composes.kept missing

mutual

/-- Every part of a compilation is orderly. -/
theorem Asks.orderly : ∀ {now later : Progress} {name : String} {deeds : List Deed}
    {answer : Option TypeSymbol}, Asks basicTypes now name deeds answer later → Orderly now deeds later
  | _, _, _, _, _, .kept had => .of_answer fun _ same => had.trans same
  | _, _, _, _, _, .unknown _ _ => .of_answer nofun
  | _, _, _, _, _, .circular _ _ _ => .of_answer nofun
  | _, _, _, _, _, .compiled missing found new compiles =>
    (compiles.orderly.enclose missing new _).trans
      (.of_answer (Asks.compiled missing found new compiles).finished)

theorem Draws.orderly : ∀ {now later : Progress} {site : Site} {reference : Option String}
    {deeds : List Deed} {inherited : Option TypeSymbol},
    Draws basicTypes now site reference deeds inherited later → Orderly now deeds later
  | _, _, _, _, _, _, .nothing => .refl _
  | _, _, _, _, _, _, .drawn asks => asks.orderly
  | _, _, _, _, _, _, .lost asks =>
    asks.orderly.onward rfl rfl (Nat.le_refl _)

theorem Compiles.orderly : ∀ {now later : Progress} {site : Site} {decl : TypeDecl}
    {deeds : List Deed} {symbol : TypeSymbol}, Compiles basicTypes now site decl deeds symbol later →
    Orderly now deeds later
  | _, _, _, _, _, _, .bare draws made => by
    subst made
    exact draws.orderly.trans (draws.assemble (.refl _) .bare)
  | _, _, _, _, _, _, .composed draws below made => by
    subst made
    have whole := below.orderly
    obtain ⟨symbols, rfl, each⟩ := below.merged
    exact draws.orderly.trans (draws.assemble whole (.merged each))

theorem CompilesFields.orderly : ∀ {now later : Progress} {site : Site}
    {own : List (String × TypeDecl)} {fields all : List (String × TypeSymbol)} {deeds : List Deed},
    CompilesFields basicTypes now site own fields deeds all later → Orderly now deeds later
  | _, _, _, _, _, _, _, .nil => .refl _
  | _, _, _, _, _, _, _, .cons first below => first.orderly.trans below.orderly

end

theorem CompilesRoots.orderly {roots : List (String × TypeDecl)} {symbols : List (String × TypeSymbol)}
    (compiles : CompilesRoots basicTypes now roots deeds symbols later) : Orderly now deeds later := by
  induction compiles with
  | nil => exact .refl _
  | cons first _ ih => exact first.orderly.trans ih

end RulesAssist.Workshop.Course
