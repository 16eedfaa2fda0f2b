import RulesAssist.Proofs.Symbol.Compilation

/-! How a compilation goes on from name to name.

A basic type is asked for by its name, and compiling it asks for further names, so nothing becomes smaller. What
ends this is that a basic type which is under way is not compiled again. The rules below say one by one what is
done, with the names under way as a part of what changes, and without a bound on how deep it goes.
-/

set_option autoImplicit false

namespace RulesAssist.Workshop.Course

/-- How far a compilation is: which basic types are under way, and what was made. -/
structure Progress where
  underWay : Finset String
  workshop : Workshop

/-- What can be told of a compilation afterwards: which basic types were begun, what was handed out for a
name, and which types were made, each with the basic type that it inherits from. -/
inductive Deed where
  | opened (name : String)
  | answered (name : String) (answer : Option TypeSymbol)
  | made (decl : TypeDecl) (inherited : Option TypeSymbol) (symbol : TypeSymbol)

def Progress.finished? (now : Progress) (name : String) : Option TypeSymbol :=
  now.workshop.basicTypes.lookup name

def Progress.open (now : Progress) (name : String) : Progress :=
  { now with underWay := insert name now.underWay }

def Progress.close (now : Progress) (name : String) (symbol : TypeSymbol) : Progress :=
  ⟨now.underWay.erase name,
    { now.workshop with basicTypes := (name, symbol) :: now.workshop.basicTypes }⟩

def Progress.note (now : Progress) (omission : Omission) : Progress :=
  { now with workshop := { now.workshop with omissions := now.workshop.omissions ++ [omission] } }

def Progress.equip (now : Progress) (site : Site) (inherited : Option TypeSymbol)
    (methods : Option (List (String × MethodDecl))) : Progress :=
  { now with workshop := (takeMethods site inherited methods now.workshop).2 }

def Progress.finish (now : Progress) : Progress :=
  { now with workshop := { now.workshop with fresh := now.workshop.fresh + 1 } }

def assembled (now : Progress) (decl : TypeDecl) (table : Option (Shared MethodTable))
    (fields : Option (List (String × TypeSymbol))) : TypeSymbol :=
  ⟨now.workshop.fresh, decl.about, table, fields, decl.basicTypeRef⟩

mutual

/-- A basic type is handed out if it is finished, and compiled if it is neither finished nor under way. -/
inductive Asks (basicTypes : List (String × TypeDecl)) :
    Progress → String → List Deed → Option TypeSymbol → Progress → Prop where
  | kept {now : Progress} {name : String} {symbol : TypeSymbol} : now.finished? name = some symbol →
      Asks basicTypes now name [.answered name (some symbol)] (some symbol) now
  | unknown {now : Progress} {name : String} : now.finished? name = none →
      basicTypes.lookup name = none → Asks basicTypes now name [.answered name none] none now
  | circular {now : Progress} {name : String} {decl : TypeDecl} : now.finished? name = none →
      basicTypes.lookup name = some decl → name ∈ now.underWay →
      Asks basicTypes now name [.answered name none] none now
  | compiled {now later : Progress} {name : String} {decl : TypeDecl} {deeds : List Deed}
      {symbol : TypeSymbol} : now.finished? name = none → basicTypes.lookup name = some decl →
      name ∉ now.underWay → Compiles basicTypes (now.open name) ⟨name, true⟩ decl deeds symbol later →
      Asks basicTypes now name (.opened name :: (deeds ++ [.answered name (some symbol)]))
        (some symbol) (later.close name symbol)

/-- The basic type that a declaration names, if it names one that is had. -/
inductive Draws (basicTypes : List (String × TypeDecl)) :
    Progress → Site → Option String → List Deed → Option TypeSymbol → Progress → Prop where
  | nothing {now : Progress} {site : Site} : Draws basicTypes now site none [] none now
  | drawn {now later : Progress} {site : Site} {name : String} {deeds : List Deed}
      {symbol : TypeSymbol} : Asks basicTypes now name deeds (some symbol) later →
      Draws basicTypes now site (some name) deeds (some symbol) later
  | lost {now later : Progress} {site : Site} {name : String} {deeds : List Deed} :
      Asks basicTypes now name deeds none later →
      Draws basicTypes now site (some name) deeds none (later.note (.reference site.path name))

/-- A type is compiled: first what it inherits, then its methods, then its fields. -/
inductive Compiles (basicTypes : List (String × TypeDecl)) :
    Progress → Site → TypeDecl → List Deed → TypeSymbol → Progress → Prop where
  | bare {now later : Progress} {site : Site} {about : String}
      {methods : Option (List (String × MethodDecl))} {basic : Option String} {deeds : List Deed}
      {inherited : Option TypeSymbol} {symbol : TypeSymbol} :
      Draws basicTypes now site basic deeds inherited later →
      assembled (later.equip site inherited methods) ⟨about, methods, none, basic⟩
        (takeMethods site inherited methods later.workshop).1 (inherited.bind (·.fields)) = symbol →
      Compiles basicTypes now site ⟨about, methods, none, basic⟩
        (deeds ++ [.made ⟨about, methods, none, basic⟩ inherited symbol]) symbol
        (later.equip site inherited methods).finish
  | composed {now between later : Progress} {site : Site} {about : String}
      {methods : Option (List (String × MethodDecl))} {basic : Option String}
      {own : List (String × TypeDecl)} {first others : List Deed} {inherited : Option TypeSymbol}
      {fields : List (String × TypeSymbol)} {symbol : TypeSymbol} :
      Draws basicTypes now site basic first inherited between →
      CompilesFields basicTypes (between.equip site inherited methods) site own
        ((inherited.bind (·.fields)).getD []) others fields later →
      assembled later ⟨about, methods, some own, basic⟩
        (takeMethods site inherited methods between.workshop).1 (some fields) = symbol →
      Compiles basicTypes now site ⟨about, methods, some own, basic⟩
        (first ++ (others ++ [.made ⟨about, methods, some own, basic⟩ inherited symbol])) symbol
        later.finish

inductive CompilesFields (basicTypes : List (String × TypeDecl)) :
    Progress → Site → List (String × TypeDecl) → List (String × TypeSymbol) → List Deed →
      List (String × TypeSymbol) → Progress → Prop where
  | nil {now : Progress} {site : Site} {fields : List (String × TypeSymbol)} :
      CompilesFields basicTypes now site [] fields [] fields now
  | cons {now between later : Progress} {site : Site} {key : String} {field : TypeDecl}
      {rest : List (String × TypeDecl)} {fields all : List (String × TypeSymbol)}
      {first others : List Deed} {symbol : TypeSymbol} :
      Compiles basicTypes now (site.child key) field first symbol between →
      CompilesFields basicTypes between site rest (Keyed.insert key symbol fields) others all later →
      CompilesFields basicTypes now site ((key, field) :: rest) fields (first ++ others) all later

end

inductive CompilesRoots (basicTypes : List (String × TypeDecl)) :
    Progress → List (String × TypeDecl) → List Deed → List (String × TypeSymbol) → Progress → Prop where
  | nil {now : Progress} : CompilesRoots basicTypes now [] [] [] now
  | cons {now between later : Progress} {name : String} {decl : TypeDecl}
      {rest : List (String × TypeDecl)} {first others : List Deed} {symbol : TypeSymbol}
      {symbols : List (String × TypeSymbol)} :
      Compiles basicTypes now ⟨name, false⟩ decl first symbol between →
      CompilesRoots basicTypes between rest others symbols later →
      CompilesRoots basicTypes now ((name, decl) :: rest) (first ++ others)
        ((name, symbol) :: symbols) later

variable {basicTypes : List (String × TypeDecl)}

mutual

/-- There is only one course that a compilation can take. -/
theorem Asks.unique : ∀ {now later : Progress} {name : String} {deeds : List Deed}
    {answer : Option TypeSymbol}, Asks basicTypes now name deeds answer later →
    ∀ {others other last}, Asks basicTypes now name others other last →
      deeds = others ∧ answer = other ∧ later = last
  -- The guards of any two cases exclude each other.
  | _, _, _, _, _, .kept had => by
    intro again
    cases again with
    | kept found =>
      cases had.symm.trans found
      exact ⟨rfl, rfl, rfl⟩
    | unknown missing | circular missing | compiled missing => cases had.symm.trans missing
  | _, _, _, _, _, .unknown missing absent => by
    intro again
    cases again with
    | kept found => cases missing.symm.trans found
    | unknown => exact ⟨rfl, rfl, rfl⟩
    | circular _ found | compiled _ found => cases absent.symm.trans found
  | _, _, _, _, _, .circular missing found busy => by
    intro again
    cases again with
    | kept had => cases missing.symm.trans had
    | unknown _ absent => cases absent.symm.trans found
    | circular => exact ⟨rfl, rfl, rfl⟩
    | compiled _ _ new => exact absurd busy new
  | _, _, _, _, _, .compiled missing found new compiles => by
    intro again
    cases again with
    | kept had => cases missing.symm.trans had
    | unknown _ absent => cases absent.symm.trans found
    | circular _ _ busy => exact absurd busy new
    | compiled _ known _ recompiles =>
      cases found.symm.trans known
      obtain ⟨rfl, rfl, rfl⟩ := compiles.unique recompiles
      exact ⟨rfl, rfl, rfl⟩

theorem Draws.unique : ∀ {now later : Progress} {site : Site} {basic : Option String}
    {deeds : List Deed} {inherited : Option TypeSymbol},
    Draws basicTypes now site basic deeds inherited later →
    ∀ {others other last}, Draws basicTypes now site basic others other last →
      deeds = others ∧ inherited = other ∧ later = last
  | _, _, _, _, _, _, .nothing => by
    intro again
    cases again
    exact ⟨rfl, rfl, rfl⟩
  | _, _, _, _, _, _, .drawn asks => by
    intro again
    cases again with
    | drawn reasks => exact asks.unique reasks
    | lost reasks => cases (asks.unique reasks).2.1
  | _, _, _, _, _, _, .lost asks => by
    intro again
    cases again with
    | drawn reasks => cases (asks.unique reasks).2.1
    | lost reasks =>
      obtain ⟨rfl, -, rfl⟩ := asks.unique reasks
      exact ⟨rfl, rfl, rfl⟩

theorem Compiles.unique : ∀ {now later : Progress} {site : Site} {decl : TypeDecl}
    {deeds : List Deed} {symbol : TypeSymbol}, Compiles basicTypes now site decl deeds symbol later →
    ∀ {others other last}, Compiles basicTypes now site decl others other last →
      deeds = others ∧ symbol = other ∧ later = last
  | _, _, _, _, _, _, .bare draws made => by
    intro again
    cases again with
    | bare redraws remade =>
      obtain ⟨rfl, rfl, rfl⟩ := draws.unique redraws
      cases made.symm.trans remade
      exact ⟨rfl, rfl, rfl⟩
  | _, _, _, _, _, _, .composed draws below made => by
    intro again
    cases again with
    | composed redraws rest remade =>
      obtain ⟨rfl, rfl, rfl⟩ := draws.unique redraws
      obtain ⟨rfl, rfl, rfl⟩ := below.unique rest
      cases made.symm.trans remade
      exact ⟨rfl, rfl, rfl⟩

theorem CompilesFields.unique : ∀ {now later : Progress} {site : Site}
    {own : List (String × TypeDecl)} {fields all : List (String × TypeSymbol)} {deeds : List Deed},
    CompilesFields basicTypes now site own fields deeds all later →
    ∀ {others other last}, CompilesFields basicTypes now site own fields others other last →
      deeds = others ∧ all = other ∧ later = last
  | _, _, _, _, _, _, _, .nil => by
    intro again
    cases again
    exact ⟨rfl, rfl, rfl⟩
  | _, _, _, _, _, _, _, .cons first below => by
    intro again
    cases again with
    | cons second rest =>
      obtain ⟨rfl, rfl, rfl⟩ := first.unique second
      obtain ⟨rfl, rfl, rfl⟩ := below.unique rest
      exact ⟨rfl, rfl, rfl⟩

end

/-- While these basic types are under way, a name is answered as the rules say. -/
def Follows (basicTypes : List (String × TypeDecl)) (underWay : Finset String) (name : String)
    (workshop : Workshop) (result : Option TypeSymbol × Workshop) : Prop :=
  ∃ deeds, Asks basicTypes ⟨underWay, workshop⟩ name deeds result.1 ⟨underWay, result.2⟩

variable {resolve : Resolve} {underWay : Finset String} {basic : Option String}

theorem exists_draws (workshop : Workshop) (site : Site)
    (follows : ∀ name ∈ basic.toList, Follows basicTypes underWay name workshop (resolve name workshop)) :
    ∃ deeds, Draws basicTypes ⟨underWay, workshop⟩ site basic deeds
      (inherit resolve site basic workshop).1 ⟨underWay, (inherit resolve site basic workshop).2⟩ := by
  cases basic with
  | none => exact ⟨[], .nothing⟩
  | some name =>
    obtain ⟨deeds, asks⟩ := follows name (List.mem_singleton_self name)
    simp only [inherit]
    generalize resolve name workshop = result at asks
    obtain ⟨_ | symbol, next⟩ := result
    · exact ⟨deeds, .lost asks⟩
    · exact ⟨deeds, .drawn asks⟩

mutual

theorem exists_compiles : ∀ (decl : TypeDecl) (site : Site) (workshop : Workshop),
    (∀ name ∈ decl.references, ∀ between,
      Follows basicTypes underWay name between (resolve name between)) →
    ∃ deeds, Compiles basicTypes ⟨underWay, workshop⟩ site decl deeds
      (buildType resolve site decl workshop).1 ⟨underWay, (buildType resolve site decl workshop).2⟩
  | ⟨about, methods, none, basic⟩, site, workshop, follows => by
    obtain ⟨deeds, draws⟩ := exists_draws workshop site fun name member => follows name member workshop
    exact ⟨_, .bare draws rfl⟩
  | ⟨about, methods, some own, basic⟩, site, workshop, follows => by
    obtain ⟨first, draws⟩ := exists_draws workshop site fun name member =>
      follows name (List.mem_append_left _ member) workshop
    obtain ⟨others, below⟩ := exists_compilesFields own site _ _ fun name member =>
      follows name (List.mem_append_right _ member)
    exact ⟨_, .composed draws below rfl⟩

theorem exists_compilesFields : ∀ (own : List (String × TypeDecl)) (site : Site)
    (fields : List (String × TypeSymbol)) (workshop : Workshop),
    (∀ name ∈ fieldReferences own, ∀ between,
      Follows basicTypes underWay name between (resolve name between)) →
    ∃ deeds, CompilesFields basicTypes ⟨underWay, workshop⟩ site own fields deeds
      (buildFields resolve site own fields workshop).1
      ⟨underWay, (buildFields resolve site own fields workshop).2⟩
  | [], _, _, _, _ => ⟨[], .nil⟩
  | (key, field) :: rest, site, fields, workshop, follows => by
    obtain ⟨first, compiles⟩ := exists_compiles field (site.child key) workshop fun name member =>
      follows name (List.mem_append_left _ member)
    obtain ⟨others, below⟩ := exists_compilesFields rest site _ _ fun name member =>
      follows name (List.mem_append_right _ member)
    exact ⟨_, .cons compiles below⟩

end

theorem exists_compilesRoots
    (follows : ∀ name between, Follows basicTypes underWay name between (resolve name between)) :
    ∀ (roots : List (String × TypeDecl)) (workshop : Workshop),
      ∃ deeds, CompilesRoots basicTypes ⟨underWay, workshop⟩ roots deeds
        (buildRoots resolve roots workshop).1 ⟨underWay, (buildRoots resolve roots workshop).2⟩
  | [], _ => ⟨[], .nil⟩
  | (name, decl) :: rest, workshop => by
    obtain ⟨first, compiles⟩ :=
      exists_compiles decl ⟨name, false⟩ workshop fun target _ => follows target
    obtain ⟨others, below⟩ := exists_compilesRoots follows rest
      (buildType resolve ⟨name, false⟩ decl workshop).2
    exact ⟨_, .cons compiles below⟩

section

variable {workshop : Workshop} {name : String} {underWay : List String}

theorem obtainBasic_of_some {symbol : TypeSymbol}
    (done : workshop.basicTypes.lookup name = some symbol) (basicTypes : List (String × TypeDecl))
    (depth : Nat) (underWay : List String) :
    obtainBasic basicTypes depth underWay name workshop = (some symbol, workshop) := by
  unfold obtainBasic
  rw [done]

theorem obtainBasic_of_unknown (missing : workshop.basicTypes.lookup name = none)
    (unknown : basicTypes.lookup name = none) (depth : Nat) (underWay : List String) :
    obtainBasic basicTypes depth underWay name workshop = (none, workshop) := by
  unfold obtainBasic
  rw [missing, unknown]
  cases depth <;> rfl

theorem obtainBasic_of_underWay (missing : workshop.basicTypes.lookup name = none)
    (busy : name ∈ underWay) (basicTypes : List (String × TypeDecl)) (depth : Nat) :
    obtainBasic basicTypes depth underWay name workshop = (none, workshop) := by
  unfold obtainBasic
  rw [missing]
  cases depth with
  | zero => rfl
  | succ depth =>
    cases basicTypes.lookup name with
    | none => rfl
    | some decl => exact if_pos busy

theorem obtainBasic_succ (missing : workshop.basicTypes.lookup name = none) {decl : TypeDecl}
    (found : basicTypes.lookup name = some decl) (new : name ∉ underWay) (depth : Nat) :
    let built := buildType (obtainBasic basicTypes depth (name :: underWay)) ⟨name, true⟩ decl workshop
    obtainBasic basicTypes (depth + 1) underWay name workshop =
      (some built.1, { built.2 with basicTypes := (name, built.1) :: built.2.basicTypes }) := by
  rw [obtainBasic.eq_def]
  simp only [missing, found, if_neg new]

theorem underWay_lt (distinct : underWay.Nodup)
    (known : ∀ other ∈ underWay, other ∈ Keyed.keys basicTypes) (new : name ∉ underWay)
    (member : name ∈ Keyed.keys basicTypes) : underWay.length < basicTypes.length := by
  have bigger : (name :: underWay).Nodup := List.nodup_cons.mpr ⟨new, distinct⟩
  have bound := bigger.length_le_of_subset (List.cons_subset.mpr ⟨member, known⟩)
  rw [Keyed.keys, List.length_map] at bound
  exact bound

theorem follows_unless_idle {resolving : Finset String} {depth : Nat}
    (same : ∀ name ∈ Keyed.keys basicTypes, name ∈ resolving ↔ name ∈ underWay)
    (idle : ∀ decl, workshop.basicTypes.lookup name = none → basicTypes.lookup name = some decl →
      name ∈ Keyed.keys basicTypes → name ∉ underWay →
      Follows basicTypes resolving name workshop (obtainBasic basicTypes depth underWay name workshop)) :
    Follows basicTypes resolving name workshop
      (obtainBasic basicTypes depth underWay name workshop) := by
  cases memo : workshop.basicTypes.lookup name with
  | some symbol =>
    rw [obtainBasic_of_some memo]
    exact ⟨_, .kept memo⟩
  | none =>
    cases found : basicTypes.lookup name with
    | none =>
      rw [obtainBasic_of_unknown memo found]
      exact ⟨_, .unknown memo found⟩
    | some decl =>
      have member := List.mem_map_of_mem (f := (·.1)) (Keyed.mem_of_lookup found)
      by_cases busy : name ∈ underWay
      · rw [obtainBasic_of_underWay memo busy]
        exact ⟨_, .circular memo found ((same name member).mpr busy)⟩
      · exact idle decl memo found member busy

end

/-- To go as deep as there are basic types is deep enough, whatever they name. -/
theorem follows_obtainBasic (depth : Nat) : ∀ (underWay : List String) (resolving : Finset String),
    underWay.Nodup → (∀ name ∈ underWay, name ∈ Keyed.keys basicTypes) →
    basicTypes.length ≤ depth + underWay.length →
    (∀ name ∈ Keyed.keys basicTypes, name ∈ resolving ↔ name ∈ underWay) → ∀ name workshop,
      Follows basicTypes resolving name workshop
        (obtainBasic basicTypes depth underWay name workshop) := by
  -- One more type under way is one step less of depth, so their sum stays large enough.
  induction depth with
  | zero =>
    intro underWay resolving distinct known bound same name workshop
    refine follows_unless_idle same fun decl memo found member new => ?_
    have room := underWay_lt distinct known new member
    omega
  | succ depth ih =>
    intro underWay resolving distinct known bound same name workshop
    refine follows_unless_idle same fun decl memo found member new => ?_
    have apart : name ∉ resolving := fun busy => new ((same name member).mp busy)
    obtain ⟨deeds, compiles⟩ := exists_compiles decl ⟨name, true⟩ workshop fun target _ between => by
      refine ih (name :: underWay) (insert name resolving) (List.nodup_cons.mpr ⟨new, distinct⟩)
        (List.forall_mem_cons.mpr ⟨member, known⟩) ?_ ?_ target between
      · rw [List.length_cons]
        omega
      · intro other listed
        rw [Finset.mem_insert, List.mem_cons, same other listed]
    have restored : (insert name resolving).erase name = resolving := Finset.erase_insert apart
    have asks := @Asks.compiled basicTypes ⟨resolving, workshop⟩ _ _ _ _ _ memo found apart compiles
    rw [Progress.close, restored] at asks
    rw [obtainBasic_succ memo found new]
    exact ⟨_, asks⟩

variable {grammar : Grammar}

theorem exists_follows (grammar : Grammar) (underWay : Finset String) :
    ∃ resolve : Resolve, ∀ name workshop,
      Follows grammar.basicTypes underWay name workshop (resolve name workshop) := by
  let busy := (Keyed.keys grammar.basicTypes).dedup.filter (· ∈ underWay)
  refine ⟨obtainBasic grammar.basicTypes grammar.basicTypes.length busy,
    follows_obtainBasic _ _ _ ?_ ?_ (Nat.le_add_right _ _) ?_⟩
  · exact (List.nodup_dedup _).filter _
  · exact fun name member => List.mem_dedup.mp (List.mem_filter.mp member).1
  · intro name known
    simp [busy, known]

/-- Whatever is under way and whatever is finished, asking for a basic type ends in one way. -/
theorem existsUnique_asks (grammar : Grammar) (now : Progress) (name : String) :
    ∃! course : List Deed × Option TypeSymbol × Progress,
      Asks grammar.basicTypes now name course.1 course.2.1 course.2.2 := by
  obtain ⟨resolve, follows⟩ := exists_follows grammar now.underWay
  obtain ⟨deeds, asks⟩ := follows name now.workshop
  refine ⟨(deeds, _, _), asks, ?_⟩
  rintro ⟨others, other, last⟩ again
  obtain ⟨rfl, rfl, rfl⟩ := asks.unique again
  rfl

theorem existsUnique_compiles (grammar : Grammar) (now : Progress) (site : Site) (decl : TypeDecl) :
    ∃! course : List Deed × TypeSymbol × Progress,
      Compiles grammar.basicTypes now site decl course.1 course.2.1 course.2.2 := by
  obtain ⟨resolve, follows⟩ := exists_follows grammar now.underWay
  obtain ⟨deeds, compiles⟩ := exists_compiles decl site now.workshop fun name _ => follows name
  refine ⟨(deeds, _, _), compiles, ?_⟩
  rintro ⟨others, other, last⟩ again
  obtain ⟨rfl, rfl, rfl⟩ := compiles.unique again
  rfl

/-- A whole compilation goes as the rules say. -/
theorem exists_run (grammar : Grammar) :
    ∃ deeds, CompilesRoots grammar.basicTypes ⟨∅, prepareAll grammar.basicTypes empty⟩ grammar.types deeds
      (run grammar).1 ⟨∅, (run grammar).2⟩ :=
  exists_compilesRoots (follows_obtainBasic _ [] ∅ List.nodup_nil nofun (Nat.le_refl _) (by simp))
    grammar.types _

end RulesAssist.Workshop.Course
