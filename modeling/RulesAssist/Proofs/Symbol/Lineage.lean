import RulesAssist.Proofs.Symbol.Everywhere
import RulesAssist.Proofs.Symbol.Survey

/-! Where the members of compiled types come from, whatever the basic types name.

A type that names a basic type has its methods and fields from there, or the reference is noted as left out.
A type that inherits nothing has the table that is in stock for its path, if it is part of a basic type, and
otherwise a table that is made for its place. The tables are listed in the order in which they are made, and
every object is entered for the place that it is made for. So no object is made for two places.
-/

set_option autoImplicit false

namespace RulesAssist

theorem TypeDecl.references_own {decl inner : TypeDecl} {keys : List String}
    (leads : decl.own? keys = some inner) : inner.references ⊆ decl.references := by
  induction keys generalizing decl with
  | nil =>
    cases leads
    exact fun _ => id
  | cons key rest ih =>
    obtain ⟨about, methods, fields, basic⟩ := decl
    obtain ⟨field, first, onward⟩ := Option.bind_eq_some_iff.mp leads
    have below : ∀ fields : List (String × TypeDecl), fields.lookup key = some field →
        field.references ⊆ fieldReferences fields := by
      intro fields found
      induction fields with
      | nil => cases found
      | cons entry rest ih =>
        rw [Keyed.lookup_cons] at found
        split at found
        · cases found
          exact fun _ => List.mem_append_left _
        · exact fun _ member => List.mem_append_right _ (ih found member)
    cases fields with
    | none => cases first
    | some fields => exact fun _ member => List.mem_append_right _ (below fields first (ih onward member))

theorem TypeDecl.basicTypeRef_mem {decl : TypeDecl} {name : String}
    (named : decl.basicTypeRef = some name) : name ∈ decl.references := by
  obtain ⟨about, methods, fields, basic⟩ := decl
  cases named
  cases fields with
  | none => exact List.mem_singleton_self name
  | some fields => exact List.mem_append_left _ (List.mem_singleton_self name)

namespace Grammar

variable {grammar : Grammar}

/-- Every basic type that is named exists. -/
def Resolved (grammar : Grammar) : Prop :=
  ∀ entry ∈ grammar.basicTypes ++ grammar.types, ∀ name ∈ entry.2.references,
    ∃ basic, grammar.basicTypes.lookup name = some basic

theorem Resolved.declared (resolved : grammar.Resolved) {place : Occurrence} {decl : TypeDecl}
    (declared : grammar.declared? place = some decl) {name : String}
    (named : decl.basicTypeRef = some name) : ∃ basic, grammar.basicTypes.lookup name = some basic := by
  obtain ⟨inside, root, keys⟩ := place
  obtain ⟨top, found, leads⟩ := Option.bind_eq_some_iff.mp declared
  refine resolved (root, top) ?_ name (TypeDecl.references_own leads (TypeDecl.basicTypeRef_mem named))
  cases inside with
  | true => exact List.mem_append_left _ (Keyed.mem_of_lookup found)
  | false => exact List.mem_append_right _ (Keyed.mem_of_lookup found)

end Grammar

namespace Workshop

open Course

/-- What holds of the type of a declaration, and of the types at the same keys below it for everything in
the tree of the declaration. -/
def Spread (holds : Occurrence → TypeDecl → TypeSymbol → Prop) (place : Occurrence) (decl : TypeDecl)
    (symbol : TypeSymbol) : Prop :=
  ∀ keys inner, decl.own? keys = some inner → ∃ reached, symbol.reach? keys = some reached ∧
    holds (place.below keys) inner reached

section

variable {holds others : Occurrence → TypeDecl → TypeSymbol → Prop} {place : Occurrence} {decl : TypeDecl}
  {symbol : TypeSymbol}

theorem Spread.mono (implied : ∀ place decl symbol, holds place decl symbol → others place decl symbol)
    (spread : Spread holds place decl symbol) : Spread others place decl symbol := by
  intro keys inner own
  obtain ⟨reached, leads, held⟩ := spread keys inner own
  exact ⟨reached, leads, implied _ _ _ held⟩

theorem Spread.here (spread : Spread holds place decl symbol) : holds place decl symbol := by
  obtain ⟨reached, ⟨⟩, held⟩ := spread [] decl rfl
  rw [Occurrence.below_nil] at held
  exact held

theorem Spread.of_fields (here : holds place decl symbol)
    (fields : ∀ key field, decl.own? [key] = some field → ∃ inner, symbol.field? key = some inner ∧
      Spread holds (place.below [key]) field inner) : Spread holds place decl symbol := by
  intro keys inner own
  cases keys with
  | nil =>
    cases own
    refine ⟨symbol, rfl, ?_⟩
    rw [Occurrence.below_nil]
    exact here
  | cons key rest =>
    rw [← List.singleton_append, TypeDecl.own?_append] at own
    obtain ⟨field, first, leads⟩ := Option.bind_eq_some_iff.mp own
    obtain ⟨lower, found, spread⟩ := fields key field first
    obtain ⟨reached, onward, below⟩ := spread rest inner leads
    refine ⟨reached, ?_, ?_⟩
    · rw [TypeSymbol.reach?, found]
      exact onward
    · rw [Occurrence.below_below] at below
      exact below

end

abbrev Stock := List (String × Shared MethodTable)

variable {grammar : Grammar} {stock : Stock} {tables more : Tables} {now last : Moment Annals}
  {place : Occurrence} {decl : TypeDecl} {symbol : TypeSymbol} {authored others : List Authored}

/-- The table that a type has if it inherits none. -/
inductive Takes (stock : Stock) (tables : Tables) (place : Occurrence) :
    Option (List (String × MethodDecl)) → Option (Shared MethodTable) → Prop where
  | nothing : Takes stock tables place none none
  | stocked {decls : List (String × MethodDecl)} {table : Shared MethodTable} :
      place.inBasicType = true → stock.lookup place.path = some table →
      Takes stock tables place (some decls) (some table)
  | made {decls : List (String × MethodDecl)} {table : Shared MethodTable} :
      (place.inBasicType = true → stock.lookup place.path = none) → (place, table) ∈ tables →
      contentsOf table.content = infosOf decls → Takes stock tables place (some decls) (some table)

/-- What a type inherits, and the methods that it has. All that it loses is noted. -/
inductive Descends (grammar : Grammar) (stock : Stock) (now : Moment Annals) (place : Occurrence)
    (decl : TypeDecl) : Option TypeSymbol → Option (Shared MethodTable) → Prop where
  | alone {table : Option (Shared MethodTable)} : Base grammar now.workshop place decl none →
      Takes stock now.note.tables place decl.methods table →
      Descends grammar stock now place decl none table
  | inherited {basic : TypeSymbol} : Base grammar now.workshop place decl (some basic) →
      (decl.methods.isSome → .methods place.path ∈ now.workshop.omissions) →
      Descends grammar stock now place decl (some basic) basic.methods

/-- A type is made for a place. It has what it inherits from an older type, but for its own fields. -/
structure Made (grammar : Grammar) (stock : Stock) (now : Moment Annals) (place : Occurrence)
    (decl : TypeDecl) (symbol : TypeSymbol) : Prop where
  entered : now.note.ledger symbol.identity = some place
  descends : ∃ inherited, Descends grammar stock now place decl inherited symbol.methods ∧
    (∀ basic, inherited = some basic → basic.identity < symbol.identity) ∧
    ∀ key, decl.own? [key] = none → symbol.field? key = inherited.bind (·.field? key)

def Drawn (tables : Tables) (symbol : TypeSymbol) : Prop :=
  symbol.Everywhere fun inner => ∀ table, inner.methods = some table → ∃ place, (place, table) ∈ tables

inductive Explained (grammar : Grammar) : Omission → Prop where
  | unknown {place : Occurrence} {decl : TypeDecl} {name : String} :
      grammar.declared? place = some decl → decl.basicTypeRef = some name →
      grammar.basicTypes.lookup name = none → Explained grammar (.reference place.path name)
  | circular {path name : String} : Relation.TransGen grammar.Refers name name →
      Explained grammar (.reference path name)
  | replaced {place : Occurrence} {decl basic : TypeDecl} {name : String} :
      grammar.declared? place = some decl → decl.basicTypeRef = some name →
      grammar.basicTypes.lookup name = some basic → decl.methods.isSome →
      Explained grammar (.methods place.path)

/-- With no reference left out, all tables of the basic types are in stock. -/
structure Quiet (grammar : Grammar) (stock : Stock) : Prop where
  resolved : grammar.Resolved
  acyclic : grammar.Acyclic
  stocked : ∀ entry ∈ grammar.basicAuthored, ∃ table, stock.lookup entry.1.path = some table

/-- Every moment of a compilation, after the tables in stock have been made. -/
structure Sound (grammar : Grammar) (stock : Stock) (now : Moment Annals) : Prop where
  prepared : now.workshop.prepared = stock
  listed : ∀ path table, stock.lookup path = some table → ∃ place, (place, table) ∈ now.note.tables
  kept : Kept now.note now.workshop
  explained : ∀ omission ∈ now.workshop.omissions, Explained grammar omission

/-- What is noted and what is finished stays so. If no reference is left out, the new tables are those of the
authored methods. -/
structure Continues (grammar : Grammar) (stock : Stock) (now : Moment Annals) (authored : List Authored)
    (last : Moment Annals) : Prop where
  entries : ∀ identity place, now.note.ledger identity = some place →
    last.note.ledger identity = some place
  omissions : now.workshop.omissions ⊆ last.workshop.omissions
  finished : ∀ name symbol, now.workshop.basicTypes.lookup name = some symbol →
    last.workshop.basicTypes.lookup name = some symbol
  tables : ∃ more, last.note.tables = now.note.tables ++ more ∧
    (Quiet grammar stock → List.Forall₂ Records more authored)

theorem Continues.trans {between : Moment Annals} (first : Continues grammar stock now authored between)
    (second : Continues grammar stock between others last) :
    Continues grammar stock now (authored ++ others) last where
  entries := fun identity place entered => second.entries _ _ (first.entries identity place entered)
  omissions := fun _ member => second.omissions (first.omissions member)
  finished := fun name symbol done => second.finished _ _ (first.finished name symbol done)
  tables := by
    obtain ⟨more, grown, records⟩ := first.tables
    obtain ⟨rest, further, recorded⟩ := second.tables
    refine ⟨more ++ rest, ?_, fun quiet => List.rel_append (records quiet) (recorded quiet)⟩
    rw [further, grown, List.append_assoc]

theorem Continues.of_same (entries : ∀ identity place, now.note.ledger identity = some place →
      last.note.ledger identity = some place)
    (omissions : now.workshop.omissions ⊆ last.workshop.omissions)
    (finished : ∀ name symbol, now.workshop.basicTypes.lookup name = some symbol →
      last.workshop.basicTypes.lookup name = some symbol)
    (tables : last.note.tables = now.note.tables) : Continues grammar stock now [] last :=
  ⟨entries, omissions, finished, [], tables.trans (List.append_nil _).symm, fun _ => .nil⟩

theorem Continues.refl (now : Moment Annals) : Continues grammar stock now [] now :=
  .of_same (fun _ _ => id) (fun _ => id) (fun _ _ => id) rfl

section

variable (continues : Continues grammar stock now authored last)
include continues

theorem Continues.listed : now.note.tables ⊆ last.note.tables := by
  obtain ⟨more, grown, _⟩ := continues.tables
  rw [grown]
  exact List.subset_append_left _ _

theorem Base.later {inherited : Option TypeSymbol}
    (base : Base grammar now.workshop place decl inherited) :
    Base grammar last.workshop place decl inherited := by
  cases base with
  | unnamed bare => exact .unnamed bare
  | lost named unobtainable noted => exact .lost named unobtainable (continues.omissions noted)
  | finished named done => exact .finished named (continues.finished _ _ done)

theorem Descends.later {inherited : Option TypeSymbol} {methods : Option (Shared MethodTable)}
    (descends : Descends grammar stock now place decl inherited methods) :
    Descends grammar stock last place decl inherited methods := by
  cases descends with
  | inherited base noted =>
    exact .inherited (base.later continues) fun owned => continues.omissions (noted owned)
  | alone base takes =>
    refine .alone (base.later continues) ?_
    generalize decl.methods = methods at takes
    cases takes with
    | nothing => exact .nothing
    | stocked inside found => exact .stocked inside found
    | made missing member contents => exact .made missing (continues.listed member) contents

theorem Made.later (made : Made grammar stock now place decl symbol) :
    Made grammar stock last place decl symbol := by
  obtain ⟨entered, inherited, descends, rest⟩ := made
  exact ⟨continues.entries _ _ entered, inherited, descends.later continues, rest⟩

theorem Drawn.later (drawn : Drawn now.note.tables symbol) : Drawn last.note.tables symbol := by
  refine TypeSymbol.Everywhere.mono (fun inner listed table had => ?_) symbol drawn
  obtain ⟨place, member⟩ := listed table had
  exact ⟨place, continues.listed member⟩

end

theorem Takes.listed {methods : Option (List (String × MethodDecl))}
    {taken : Option (Shared MethodTable)} (takes : Takes stock tables place methods taken)
    (stocked : ∀ path table, stock.lookup path = some table → ∃ place, (place, table) ∈ tables)
    {table : Shared MethodTable} (had : taken = some table) : ∃ place, (place, table) ∈ tables := by
  cases takes with
  | nothing => cases had
  | stocked _ found =>
    cases had
    exact stocked _ _ found
  | made _ member _ =>
    cases had
    exact ⟨place, member⟩

theorem Quiet.obtainable (quiet : Quiet grammar stock) (declared : grammar.declared? place = some decl)
    {name : String} (named : decl.basicTypeRef = some name) : ¬ grammar.Unobtainable name := by
  rintro (unknown | circle)
  · obtain ⟨basic, found⟩ := quiet.resolved.declared declared named
    cases unknown.symm.trans found
  · exact quiet.acyclic name circle

theorem Quiet.bare (quiet : Quiet grammar stock) (declared : grammar.declared? place = some decl)
    (base : Base grammar now.workshop place decl none) : decl.basicTypeRef = none := by
  cases base with
  | unnamed bare => exact bare
  | lost named unobtainable _ => exact absurd unobtainable (quiet.obtainable declared named)

def tracing (grammar : Grammar) (stock : Stock) (tale : List Deed) : Survey grammar tale Annals where
  stands place decl := grammar.declared? place = some decl
  sound := Sound grammar stock
  later := Continues grammar stock
  begun := Descends grammar stock
  right now place decl symbol :=
    Spread (Made grammar stock now) place decl symbol ∧ Drawn now.note.tables symbol

namespace Sound

variable {tale : List Deed}

theorem note (sound : Sound grammar stock now) {omission : Omission}
    (explained : Explained grammar omission) :
    let next : Moment Annals := ⟨now.note,
      { now.workshop with omissions := now.workshop.omissions ++ [omission] }⟩
    Continues grammar stock now [] next ∧ Sound grammar stock next := by
  refine ⟨.of_same (fun _ _ => id) (List.subset_append_left _ _) (fun _ _ => id) rfl, sound.prepared,
    sound.listed, sound.kept.of_later rfl (Nat.le_refl _), fun other member => ?_⟩
  rcases List.mem_append.mp member with before | added
  · exact sound.explained other before
  · exact List.mem_singleton.mp added ▸ explained

/-- Without a reference left out, every table of a basic type is in stock, so a new one is for a root. -/
theorem makeTable (sound : Sound grammar stock now) (declared : grammar.declared? place = some decl)
    (base : Base grammar now.workshop place decl none) {decls : List (String × MethodDecl)}
    (own : decl.methods = some decls)
    (unstocked : place.inBasicType = true → stock.lookup place.path = none) :
    let next : Moment Annals :=
      ⟨now.note.enterTable now.workshop place decls, (makeTable decls now.workshop).2⟩
    Continues grammar stock now (place.additions (place.authored (some decls) decl.basicTypeRef)) next ∧
      Sound grammar stock next := by
  intro next
  have adds := adds_makeTable decls now.workshop
  have continues : Continues grammar stock now
      (place.additions (place.authored (some decls) decl.basicTypeRef)) next := by
    refine ⟨fun _ _ entered => sound.kept.enter_of_entered entered _ place, ?_, ?_, _, rfl,
      fun quiet => ?_⟩
    · exact adds.omissions ▸ fun _ => id
    · exact adds.basicTypes ▸ fun _ _ => id
    · have bare := quiet.bare declared base
      rw [bare, Occurrence.additions, if_neg]
      · exact .cons ⟨rfl, contents_makeTable decls now.workshop⟩ .nil
      · intro inside
        obtain ⟨table, found⟩ :=
          quiet.stocked _ (Grammar.mem_basicAuthored inside declared bare own)
        cases (unstocked inside).symm.trans found
  refine ⟨continues, adds.prepared.trans sound.prepared, fun path table found => ?_,
    sound.kept.enterTable place decls, ?_⟩
  · obtain ⟨other, member⟩ := sound.listed path table found
    exact ⟨other, continues.listed member⟩
  · rw [adds.omissions]
    exact sound.explained

theorem equip_alone (sound : Sound grammar stock now) (declared : grammar.declared? place = some decl)
    (base : Base grammar now.workshop place decl none) {methods : Option (List (String × MethodDecl))}
    (own : decl.methods = methods) {taken : Option (Shared MethodTable) × Workshop}
    (equips : Equips place.site now.workshop none methods taken) :
    (tracing grammar stock tale).Leads now (place.additions (place.authored methods decl.basicTypeRef))
      taken.2 fun next =>
        Sound grammar stock next ∧ Descends grammar stock next place decl none taken.1 := by
  cases equips with
  | bare =>
    have nothing : place.authored none decl.basicTypeRef = [] := by
      cases decl.basicTypeRef <;> rfl
    rw [nothing, Occurrence.additions_nil]
    exact ⟨now.note, .refl now, sound, .alone base (own ▸ .nothing)⟩
  | stocked inside found =>
    -- What is authored inside a basic type was told of before the first type was compiled.
    rw [Occurrence.additions, if_pos (show place.inBasicType = true from inside)]
    exact ⟨now.note, .refl now, sound, .alone base (own ▸ .stocked inside (sound.prepared ▸ found))⟩
  | @made decls missing =>
    have unstocked : place.inBasicType = true → stock.lookup place.path = none :=
      fun inside => sound.prepared ▸ missing inside
    obtain ⟨continues, next⟩ := sound.makeTable declared base own unstocked
    refine ⟨_, continues, next, .alone (base.later continues) (own ▸ .made unstocked ?_ ?_)⟩
    · exact List.mem_append_right _ (List.mem_singleton_self _)
    · exact contents_makeTable decls now.workshop

theorem equip_inheriting (sound : Sound grammar stock now) (declared : grammar.declared? place = some decl)
    {basic : TypeSymbol} (base : Base grammar now.workshop place decl (some basic)) {name : String}
    (named : decl.basicTypeRef = some name) {origin : TypeDecl}
    (found : grammar.basicTypes.lookup name = some origin)
    {methods : Option (List (String × MethodDecl))} (own : decl.methods = methods)
    {taken : Option (Shared MethodTable) × Workshop}
    (equips : Equips place.site now.workshop (some basic) methods taken) :
    (tracing grammar stock tale).Leads now (place.additions (place.authored methods decl.basicTypeRef))
      taken.2 fun next =>
        Sound grammar stock next ∧ Descends grammar stock next place decl (some basic) taken.1 := by
  have nothing : place.authored methods (some name) = [] := rfl
  rw [named, nothing, Occurrence.additions_nil]
  cases equips with
  | shared => exact ⟨now.note, .refl now, sound, .inherited base (own ▸ nofun)⟩
  | replaced =>
    obtain ⟨continues, next⟩ := sound.note (.replaced declared named found (own ▸ rfl))
    refine ⟨now.note, continues, next, .inherited (base.later continues) fun _ => ?_⟩
    exact List.mem_append_right _ (List.mem_singleton_self _)

/-- The next object is entered for the place. -/
theorem finish (sound : Sound grammar stock now) (place : Occurrence) :
    let workshop := { now.workshop with fresh := now.workshop.fresh + 1 }
    let next : Moment Annals := ⟨now.note.enter now.workshop workshop place, workshop⟩
    Continues grammar stock now [] next ∧ Sound grammar stock next ∧
      next.note.ledger now.workshop.fresh = some place := by
  intro workshop next
  refine ⟨?_, ⟨sound.prepared, sound.listed, ?_, sound.explained⟩, ?_⟩
  · exact .of_same (fun _ _ entered => sound.kept.enter_of_entered entered _ place) (fun _ => id)
      (fun _ _ => id) rfl
  · refine sound.kept.enter ?_ ?_ place
    · rfl
    · exact Nat.le_succ _
  · exact if_pos ⟨Nat.le_refl _, Nat.lt_succ_self _⟩

theorem keep (sound : Sound grammar stock now) {name : String}
    (missing : now.workshop.basicTypes.lookup name = none) (symbol : TypeSymbol) :
    let next : Moment Annals := ⟨now.note,
      { now.workshop with basicTypes := (name, symbol) :: now.workshop.basicTypes }⟩
    Continues grammar stock now [] next ∧ Sound grammar stock next := by
  refine ⟨.of_same (fun _ _ => id) (fun _ => id) ?_ rfl, sound.prepared, sound.listed,
    sound.kept.of_later rfl (Nat.le_refl _), sound.explained⟩
  intro other known done
  rw [Keyed.lookup_cons, if_neg]
  · exact done
  · rintro rfl
    cases missing.symm.trans done

end Sound

theorem Made.of_composes {right : String → TypeDecl → TypeSymbol → Prop} {inherited : Option TypeSymbol}
    (entered : now.note.ledger symbol.identity = some place)
    (descends : Descends grammar stock now place decl inherited symbol.methods)
    (older : ∀ basic, inherited = some basic → basic.identity < symbol.identity)
    (composes : Composes right (inherited.bind (·.fields)) decl.fields symbol.fields) :
    Made grammar stock now place decl symbol := by
  refine ⟨entered, inherited, descends, older, fun key missing => ?_⟩
  rw [TypeDecl.own?_singleton] at missing
  exact (composes.kept missing).trans (Option.bind_assoc ..)

theorem Descends.drawn {tale : List Deed} (good : (tracing grammar stock tale).Good now)
    {inherited : Option TypeSymbol} {methods : Option (Shared MethodTable)}
    (descends : Descends grammar stock now place decl inherited methods) :
    (∀ table, methods = some table → ∃ place, (place, table) ∈ now.note.tables) ∧
      ∀ basic, inherited = some basic →
        Drawn now.note.tables basic ∧ basic.identity < now.workshop.fresh := by
  have sound : Sound grammar stock now := good.sound
  cases descends with
  | alone _ takes =>
    refine ⟨fun _ => takes.listed sound.listed, ?_⟩
    rintro _ ⟨⟩
  | @inherited basic base _ =>
    obtain ⟨_, _, _, _, spread, drawn⟩ := good.inherited base
    refine ⟨(TypeSymbol.everywhere_iff.mp drawn).1, ?_⟩
    rintro _ ⟨⟩
    exact ⟨drawn, sound.kept.lt_fresh spread.here.entered⟩

theorem tracing_lawful (distinct : grammar.Distinct) (stock : Stock) (tale : List Deed) :
    (tracing grammar stock tale).Lawful where
  passes := Grammar.passes_declared distinct
  refl := .refl
  trans := .trans
  begun_later continues descends := descends.later continues
  right_later continues right :=
    ⟨right.1.mono fun _ _ _ made => made.later continues, right.2.later continues⟩
  lose := by
    intro now place decl name good declared named unobtainable
    have explained : Explained grammar (.reference place.path name) :=
      unobtainable.elim (.unknown declared named) .circular
    exact ⟨now.note, Sound.note good.sound explained⟩
  equip := by
    intro now place decl inherited taken good declared base equips
    cases inherited with
    | none => exact Sound.equip_alone good.sound declared base rfl equips
    | some basic =>
      obtain ⟨name, origin, named, found, _⟩ := good.inherited base
      exact Sound.equip_inheriting good.sound declared base named found rfl equips
  finish := by
    intro now place decl inherited table fields good declared descends composes symbol _
    obtain ⟨continues, next, entered⟩ := Sound.finish good.sound place
    obtain ⟨listed, basic⟩ := descends.drawn good
    have made : Made grammar stock _ place decl symbol :=
      Made.of_composes entered (descends.later continues) (fun type had => (basic type had).2) composes
    refine ⟨_, continues, next, .of_fields made fun key field own => ?_, ?_⟩
    · have unique := TypeDecl.throughout_iff.mp (Grammar.distinct_of_declared declared distinct)
      rw [TypeDecl.own?_singleton] at own
      obtain ⟨inner, found, spread, _⟩ := composes.found (fun own had => (unique own had).1) own
      exact ⟨inner, found, spread.mono fun _ _ _ made => made.later continues⟩
    · exact TypeSymbol.everywhere_of_composes listed (fun type had => (basic type had).1)
        (composes.mono fun _ _ _ right => right.2)
  keep := by
    intro now name decl symbol good _ _ missing
    exact ⟨now.note, Sound.keep good.sound missing symbol⟩

end Workshop

end RulesAssist
