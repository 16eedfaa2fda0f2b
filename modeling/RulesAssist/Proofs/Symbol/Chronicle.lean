import RulesAssist.Proofs.Symbol.Lineage

/-! The whole course of a compilation.

All tables that are made in advance come first, one for each entry of the list of authored methods of the
basic types. Then come those that are made on the way; if no reference is left out, these are the tables of
the roots, one for each entry of their list. The ledger tells for which place each of them was made, and each
type.
-/

set_option autoImplicit false

namespace RulesAssist

namespace Workshop

variable {grammar : Grammar}

/-- The type at the keys of a place, below its root or its basic type. -/
def objectAt? (grammar : Grammar) (place : Occurrence) : Option TypeSymbol :=
  ((if place.inBasicType then (run grammar).2.basicTypes else (run grammar).1).lookup place.name).bind
    (TypeSymbol.reach? place.keys)

theorem objectAt?_root (grammar : Grammar) (name : String) :
    objectAt? grammar (.root name) = (run grammar).1.lookup name :=
  Option.bind_fun_some _

theorem objectAt?_basic (grammar : Grammar) (name : String) :
    objectAt? grammar (.basic name) = (run grammar).2.basicTypes.lookup name :=
  Option.bind_fun_some _

theorem objectAt?_below (grammar : Grammar) (place : Occurrence) (keys : List String) :
    objectAt? grammar (place.below keys) =
      (objectAt? grammar place).bind (TypeSymbol.reach? keys) := by
  unfold objectAt? Occurrence.below
  rw [Option.bind_assoc]
  exact congrArg _ (funext fun symbol => symbol.reach?_append place.keys keys)

/-- What tables a compilation made, and what became of every declaration. -/
structure Chronicle (grammar : Grammar) (annals : Annals) : Prop where
  kept : Kept annals (run grammar).2
  stocked : ∀ path table, (run grammar).2.prepared.lookup path = some table →
    ∃ entry ∈ grammar.basicAuthored, entry.1.path = path ∧ (entry.1, table) ∈ annals.tables
  held : ∀ path, Option.Rel (fun table last => contentsOf table.content = infosOf last.2)
    ((run grammar).2.prepared.lookup path) (grammar.holder? path)
  explained : ∀ omission ∈ (run grammar).2.omissions, Explained grammar omission
  known : ∀ place symbol, place.keys = [] → objectAt? grammar place = some symbol →
    ∃ decl, grammar.declared? place = some decl
  compiled : ∀ place decl, grammar.declared? place = some decl → place.inBasicType = false →
    ∃ symbol, objectAt? grammar place = some symbol
  made : ∀ place decl symbol, grammar.declared? place = some decl →
    objectAt? grammar place = some symbol →
    Made grammar (run grammar).2.prepared ⟨annals, (run grammar).2⟩ place decl symbol
  drawn : ∀ root ∈ (run grammar).1, Drawn annals.tables root.2
  records : grammar.Resolved → grammar.Acyclic → List.Forall₂ Records annals.tables grammar.authored

theorem Stored.held {annals : Annals} {workshop : Workshop}
    (stored : Stored annals grammar.basicAuthored workshop) (path : String) :
    Option.Rel (fun table last => contentsOf table.content = infosOf last.2)
      (workshop.prepared.lookup path) (grammar.holder? path) := by
  rw [stored.prepared]
  exact holder_of_records stored.records path

theorem Stored.sound {annals : Annals} {workshop : Workshop}
    (stored : Stored annals grammar.basicAuthored workshop) :
    Sound grammar workshop.prepared ⟨annals, workshop⟩ where
  prepared := rfl
  listed := by
    intro path table found
    obtain ⟨entry, _, _, member, _⟩ := stored.exists_of_lookup found
    exact ⟨entry.1, member⟩
  kept := stored.kept
  explained := by
    rw [stored.omissions]
    nofun

theorem Stored.quiet {annals : Annals} {workshop : Workshop}
    (stored : Stored annals grammar.basicAuthored workshop) (resolved : grammar.Resolved)
    (acyclic : grammar.Acyclic) : Quiet grammar workshop.prepared := by
  refine ⟨resolved, acyclic, fun entry member => ?_⟩
  have held := stored.held entry.1.path
  obtain ⟨last, holds⟩ := Grammar.holder?_of_mem member
  rw [holds] at held
  generalize workshop.prepared.lookup entry.1.path = table at held ⊢
  cases held with
  | some _ => exact ⟨_, rfl⟩

section Traced

variable {stock : Stock} {tale : List Course.Deed} {annals : Annals}
  (good : (tracing grammar stock tale).Good ⟨annals, (run grammar).2⟩)
  (each : Each (fun name => (tracing grammar stock tale).right ⟨annals, (run grammar).2⟩ (.root name))
    (run grammar).1 grammar.types)

include good each

theorem exists_declared (distinct : grammar.Distinct) {place : Occurrence} {symbol : TypeSymbol}
    (top : place.keys = []) (stands : objectAt? grammar place = some symbol) :
    ∃ decl, grammar.declared? place = some decl := by
  obtain ⟨inside, name, keys⟩ := place
  cases show keys = [] from top
  obtain ⟨above, had, _⟩ := Option.bind_eq_some_iff.mp stands
  cases inside with
  | true =>
    obtain ⟨decl, found, _⟩ := good.finished name above had
    exact ⟨decl, (Grammar.declared?_basic grammar name).trans found⟩
  | false =>
    obtain ⟨decl, listed, _⟩ := each.exists_of_mem (Keyed.mem_of_lookup had)
    exact ⟨decl, Grammar.declared?_root distinct listed⟩

theorem made_of_declared {place : Occurrence} {decl : TypeDecl} {symbol : TypeSymbol}
    (declared : grammar.declared? place = some decl) (stands : objectAt? grammar place = some symbol) :
    Made grammar stock ⟨annals, (run grammar).2⟩ place decl symbol := by
  obtain ⟨inside, name, keys⟩ := place
  obtain ⟨top, found, leads⟩ := Option.bind_eq_some_iff.mp declared
  obtain ⟨above, had, reached⟩ := Option.bind_eq_some_iff.mp stands
  -- Only the root or the basic type was compiled as a whole, and what was made below it is spread over it.
  have spread : Spread (Made grammar stock ⟨annals, (run grammar).2⟩) ⟨inside, name, []⟩ top above := by
    cases inside with
    | true =>
      obtain ⟨_, same, spread, _⟩ := good.finished name above had
      cases found.symm.trans same
      exact spread
    | false =>
      obtain ⟨root, same, spread, _⟩ := each.exists_of_lookup found
      cases had.symm.trans same
      exact spread
  obtain ⟨inner, onward, made⟩ := spread keys decl leads
  cases reached.symm.trans onward
  exact made

omit good in
theorem exists_object {place : Occurrence} {decl : TypeDecl} (declared : grammar.declared? place = some decl)
    (outside : place.inBasicType = false) : ∃ symbol, objectAt? grammar place = some symbol := by
  obtain ⟨inside, name, keys⟩ := place
  cases show inside = false from outside
  obtain ⟨top, found, leads⟩ := Option.bind_eq_some_iff.mp declared
  obtain ⟨root, listed, spread, _⟩ := each.exists_of_lookup found
  obtain ⟨reached, onward, _⟩ := spread keys decl leads
  exact ⟨reached, Option.bind_eq_some_iff.mpr ⟨root, listed, onward⟩⟩

end Traced

theorem exists_chronicle (distinct : grammar.Distinct) : ∃ annals, Chronicle grammar annals := by
  obtain ⟨deeds, compiles⟩ := Course.exists_run grammar
  obtain ⟨before, stored⟩ := exists_stored grammar
  obtain ⟨annals, continues, good, each⟩ :=
    (tracing_lawful distinct _ deeds).run compiles before stored.sound
  have sound : Sound grammar _ ⟨annals, (run grammar).2⟩ := good.sound
  have prepared := sound.prepared
  refine ⟨annals, sound.kept, ?_, ?_, sound.explained, fun _ _ => exists_declared good each distinct,
    fun _ _ => exists_object each, ?_, ?_, ?_⟩
  · rw [prepared]
    intro path table found
    obtain ⟨entry, authored, here, member, _⟩ := stored.exists_of_lookup found
    exact ⟨entry, authored, here, continues.listed member⟩
  · rw [prepared]
    exact stored.held
  · rw [prepared]
    exact fun _ _ _ => made_of_declared good each
  · intro root member
    obtain ⟨_, _, _, drawn⟩ := each.exists_of_mem member
    exact drawn
  · intro resolved acyclic
    obtain ⟨onTheWay, grown, records⟩ := continues.tables
    rw [show annals.tables = before.tables ++ onTheWay from grown]
    exact List.rel_append stored.records (records (stored.quiet resolved acyclic))

/-- A type that names no basic type has a table of its own. -/
theorem Chronicle.takes {annals : Annals} (chronicle : Chronicle grammar annals) {place : Occurrence}
    {decl : TypeDecl} {symbol : TypeSymbol} (declared : grammar.declared? place = some decl)
    (bare : decl.basicTypeRef = none) (stands : objectAt? grammar place = some symbol) :
    Takes (run grammar).2.prepared annals.tables place decl.methods symbol.methods := by
  obtain ⟨_, inherited, descends, _⟩ := chronicle.made place decl symbol declared stands
  generalize symbol.methods = taken at descends ⊢
  cases descends with
  | alone _ takes => exact takes
  | inherited base _ =>
    cases base with
    | finished named _ => cases bare.symm.trans named

end Workshop

end RulesAssist
