import RulesAssist.Proofs.Symbol.Chronicle
import RulesAssist.Proofs.Symbol.Tidy

/-! One object for each place of a grammar.

A path finds the type that was made for the place that it leads to, and a type has the methods that were
made for the place where its chain of basic types ends. The ledger tells the places from the objects.
-/

set_option autoImplicit false

namespace RulesAssist

namespace Workshop

variable {grammar : Grammar} {annals : Annals} (chronicle : Chronicle grammar annals)
include chronicle

/-- A field of the type at a place is the type at the place that the key leads to. -/
theorem Chronicle.leads {key : String} {inner : TypeSymbol} (symbol : TypeSymbol) :
    ∀ place decl, grammar.declared? place = some decl → objectAt? grammar place = some symbol →
      symbol.field? key = some inner → ∃ target field, grammar.Leads key place target ∧
        grammar.declared? target = some field ∧ objectAt? grammar target = some inner := by
  -- Inherited types are older, so the chain of basic types comes to an end.
  induction age : symbol.identity using Nat.strongRecOn generalizing symbol with
  | ind identity ih =>
    intro place decl declared stands found
    obtain ⟨_, inherited, descends, older, others⟩ := chronicle.made place decl symbol declared stands
    have below := Grammar.declared?_below declared [key]
    cases own : decl.own? [key] with
    | some field =>
      rw [own] at below
      refine ⟨place.below [key], field, .own below, below, ?_⟩
      rw [objectAt?_below, stands, Option.bind_some, TypeSymbol.reach?, found]
      rfl
    | none =>
      rw [own] at below
      rw [others key own] at found
      generalize symbol.methods = methods at descends
      cases descends with
      | alone _ _ => cases found
      | @inherited basic base _ =>
        cases base with
        | @finished name _ named done =>
          have kept := (objectAt?_basic grammar name).trans done
          obtain ⟨origin, exists'⟩ := chronicle.known _ basic rfl kept
          obtain ⟨target, field, leads, rest⟩ :=
            ih basic.identity (age ▸ older basic rfl) basic rfl (.basic name) origin exists' kept found
          exact ⟨target, field, .inherited declared below named leads, rest⟩

theorem Chronicle.follows {keys : List String} {last : TypeSymbol} : ∀ {place : Occurrence}
    {decl : TypeDecl} {symbol : TypeSymbol}, grammar.declared? place = some decl →
    objectAt? grammar place = some symbol → symbol.reach? keys = some last →
    ∃ target field, grammar.Follows place keys target ∧ grammar.declared? target = some field ∧
      objectAt? grammar target = some last := by
  induction keys with
  | nil =>
    intro place decl symbol declared stands reached
    cases reached
    exact ⟨place, decl, .here, declared, stands⟩
  | cons key rest ih =>
    intro place decl symbol declared stands reached
    obtain ⟨inner, found, onward⟩ := Option.bind_eq_some_iff.mp reached
    obtain ⟨next, field, leads, exists', there⟩ :=
      chronicle.leads symbol place decl declared stands found
    obtain ⟨target, final, follows, rest⟩ := ih exists' there onward
    exact ⟨target, final, .through leads follows, rest⟩

theorem Chronicle.entered_of_takes (distinct : grammar.Distinct) (undotted : grammar.Undotted)
    {place : Occurrence} {decl : TypeDecl} (declared : grammar.declared? place = some decl)
    {methods : Option (List (String × MethodDecl))} {table : Shared MethodTable}
    (takes : Takes (run grammar).2.prepared annals.tables place methods (some table)) :
    annals.ledger table.identity = some place := by
  cases takes with
  | made _ member _ => exact chronicle.kept.entered _ member
  | stocked inside found =>
    obtain ⟨entry, authored, path, member⟩ := chronicle.stocked _ _ found
    obtain ⟨within, _, known, _⟩ := Grammar.declared_of_basicAuthored distinct authored
    have same := (Grammar.undotted_of_declared known undotted).path_inj
      (Grammar.undotted_of_declared declared undotted) (within.trans inside.symm) path
    exact same ▸ chronicle.kept.entered _ member

/-- The chain of basic types ends at a type with the same methods, which were made for its place. -/
theorem Chronicle.ends (distinct : grammar.Distinct) (undotted : grammar.Undotted)
    (acyclic : grammar.Acyclic) (symbol : TypeSymbol) :
    ∀ place decl, grammar.declared? place = some decl → objectAt? grammar place = some symbol →
      ∃ last origin, grammar.Ends place last ∧ objectAt? grammar last = some origin ∧
        origin.methods = symbol.methods ∧
        ∀ table, symbol.methods = some table → annals.ledger table.identity = some last := by
  induction age : symbol.identity using Nat.strongRecOn generalizing symbol with
  | ind identity ih =>
    intro place decl declared stands
    obtain ⟨_, inherited, descends, older, _⟩ := chronicle.made place decl symbol declared stands
    generalize taken : symbol.methods = methods at descends ⊢
    cases descends with
    | alone base takes =>
      refine ⟨place, symbol, .here declared (base.basicOf_eq_none acyclic), stands, taken, ?_⟩
      rintro table rfl
      exact chronicle.entered_of_takes distinct undotted declared takes
    | @inherited basic base _ =>
      cases base with
      | @finished name _ named done =>
        have kept := (objectAt?_basic grammar name).trans done
        obtain ⟨origin, exists'⟩ := chronicle.known _ basic rfl kept
        obtain ⟨last, holder, ends, rest⟩ :=
          ih basic.identity (age ▸ older basic rfl) basic rfl (.basic name) origin exists' kept
        exact ⟨last, holder, .onward declared named ends, rest⟩

end Workshop

namespace SymbolTable

variable {grammar : Grammar} {annals : Workshop.Annals}

theorem site_of_type? (distinct : grammar.Distinct) (undotted : grammar.Undotted)
    (chronicle : Workshop.Chronicle grammar annals) {path : String} (dots : ¬ Plain path)
    {symbol : TypeSymbol} (found : (compile grammar).type? path = some symbol) :
    ∃ place decl, grammar.Site path place ∧ grammar.declared? place = some decl ∧
      Workshop.objectAt? grammar place = some symbol := by
  obtain ⟨root, keys, rooted, plain, rfl⟩ := exists_pathOf path
  have nonempty : keys ≠ [] := by
    rintro rfl
    exact dots rooted
  rw [type?_of_keys distinct undotted rooted plain nonempty] at found
  obtain ⟨top, listed, reached⟩ := Option.bind_eq_some_iff.mp found
  have stands := (Workshop.objectAt?_root grammar root).trans listed
  obtain ⟨decl, declared⟩ := chronicle.known _ top rfl stands
  obtain ⟨target, field, follows, rest⟩ := chronicle.follows declared stands reached
  exact ⟨target, field, ⟨root, keys, rooted, plain, nonempty, rfl, follows⟩, rest⟩

/-- Two paths find the same object if and only if they lead to the same place of the grammar, and their
types have the same table of methods if and only if the chains of basic types end at the same place. -/
theorem same_object_iff_same_site (distinct : grammar.Distinct) (undotted : grammar.Undotted)
    (acyclic : grammar.Acyclic) {path other : String} {symbol another : TypeSymbol}
    (dots : ¬ Plain path) (others : ¬ Plain other)
    (found : (compile grammar).type? path = some symbol)
    (had : (compile grammar).type? other = some another) :
    ∃ place target, (∀ site, grammar.Site path site ↔ site = place) ∧
      (∀ site, grammar.Site other site ↔ site = target) ∧
      (symbol.identity = another.identity ↔ place = target) ∧ (place = target → symbol = another) ∧
      ∀ table last, symbol.methods = some table → another.methods = some last →
        ∃ source origin, (∀ ends, grammar.Ends place ends ↔ ends = source) ∧
          (∀ ends, grammar.Ends target ends ↔ ends = origin) ∧
          (table.identity = last.identity ↔ source = origin) ∧ (source = origin → table = last) := by
  obtain ⟨annals, chronicle⟩ := Workshop.exists_chronicle distinct
  obtain ⟨place, decl, site, declared, stands⟩ :=
    site_of_type? distinct undotted chronicle dots found
  obtain ⟨target, field, leads, exists', there⟩ :=
    site_of_type? distinct undotted chronicle others had
  have same : place = target → symbol = another := by
    rintro rfl
    exact Option.some.inj (stands.symm.trans there)
  refine ⟨place, target, ?_, ?_, ⟨?_, ?_⟩, same, ?_⟩
  · exact fun any => ⟨fun sites => sites.unique site, fun equal => equal ▸ site⟩
  · exact fun any => ⟨fun sites => sites.unique leads, fun equal => equal ▸ leads⟩
  · -- The ledger has one place for each object.
    intro equal
    have entered := (chronicle.made place decl symbol declared stands).entered
    rw [equal, (chronicle.made target field another exists' there).entered] at entered
    exact (Option.some.inj entered).symm
  · exact fun equal => congrArg TypeSymbol.identity (same equal)
  · intro table last owned taken
    obtain ⟨source, first, ends, kept, shared, made⟩ :=
      chronicle.ends distinct undotted acyclic symbol place decl declared stands
    obtain ⟨origin, second, stops, held, common, wrought⟩ :=
      chronicle.ends distinct undotted acyclic another target field exists' there
    have equal : source = origin → table = last := by
      rintro rfl
      cases kept.symm.trans held
      exact Option.some.inj (owned.symm.trans (shared.symm.trans (common.trans taken)))
    refine ⟨source, origin, ?_, ?_, ⟨?_, ?_⟩, equal⟩
    · exact fun any => ⟨fun chain => chain.unique ends, fun same => same ▸ ends⟩
    · exact fun any => ⟨fun chain => chain.unique stops, fun same => same ▸ stops⟩
    · intro identical
      have entered := made table owned
      rw [identical, wrought last taken] at entered
      exact (Option.some.inj entered).symm
    · exact fun same => congrArg Shared.identity (equal same)

/-- Two types whose fields have the methods of one basic type: one by way of another basic type, and one
that names it. -/
def sharing : Grammar where
  accessModifiers := []
  basicTypes :=
    [("string", ⟨"S", some [("size", ⟨"counts", none, none⟩)], none, none⟩),
      ("document", ⟨"D", none, some [("name", ⟨"N", none, none, some "string"⟩)], none⟩)]
  types :=
    [("request", ⟨"Q", none, none, some "document"⟩),
      ("resource", ⟨"X", none,
        some [("data", ⟨"kept", none, none, some "document"⟩),
          ("tag", ⟨"T", none, none, some "string"⟩)], none⟩)]

theorem sharing_distinct : sharing.Distinct where
  basicTypes := by decide
  types := by decide
  basicFields := by simp [sharing, TypeDecl.Throughout, fieldsThroughout, Keyed.keys]
  fields := by simp [sharing, TypeDecl.Throughout, fieldsThroughout, Keyed.keys]

theorem sharing_undotted : sharing.Undotted where
  basicTypes := by simp [sharing, Plain]
  types := by simp [sharing, Plain]
  basicFields := by simp [sharing, TypeDecl.Throughout, fieldsThroughout, Plain]
  fields := by
    simp only [sharing, List.forall_mem_cons, TypeDecl.Throughout, fieldsThroughout, Plain]
    simp

theorem sharing_acyclic : sharing.Acyclic := by
  apply Grammar.acyclic_of_rank (fun name => if name = "document" then 1 else 0)
  rintro name target ⟨decl, found, named⟩
  replace found := Keyed.mem_of_lookup found
  simp only [sharing, List.mem_cons, List.not_mem_nil, Prod.mk.injEq, or_false] at found
  obtain ⟨rfl, rfl⟩ | ⟨rfl, rfl⟩ := found
  · simp [TypeDecl.references] at named
  · have basic : target = "string" := by simpa [TypeDecl.references, fieldReferences] using named
    simp [basic]

theorem same_object_iff_same_site_sharing :
    sharing.Distinct ∧ sharing.Undotted ∧ sharing.Acyclic ∧ ¬ Plain "resource.data.name" ∧
      ¬ Plain "request.name" ∧ ¬ Plain "resource.tag" ∧
      ∃ symbol another third, (compile sharing).type? "resource.data.name" = some symbol ∧
        (compile sharing).type? "request.name" = some another ∧
        (compile sharing).type? "resource.tag" = some third ∧
        (∃ place, (∀ site, sharing.Site "resource.data.name" site ↔ site = place) ∧
          (∀ site, sharing.Site "request.name" site ↔ site = place) ∧ symbol = another) ∧
        ∃ place target, (∀ site, sharing.Site "request.name" site ↔ site = place) ∧
          (∀ site, sharing.Site "resource.tag" site ↔ site = target) ∧ place ≠ target ∧
          ∃ source, (∀ ends, sharing.Ends place ends ↔ ends = source) ∧
            ∀ ends, sharing.Ends target ends ↔ ends = source := by
  have numbers : ∀ path number, ((compile sharing).type? path).map
      (fun symbol => (symbol.identity, symbol.methods.map (·.identity))) = some (number, some 1) →
      ∃ symbol table, (compile sharing).type? path = some symbol ∧ symbol.identity = number ∧
        symbol.methods = some table ∧ table.identity = 1 := by
    intro path number known
    obtain ⟨symbol, found, identities⟩ := Option.map_eq_some_iff.mp known
    rw [Prod.mk.injEq, Option.map_eq_some_iff] at identities
    obtain ⟨table, owned, identity⟩ := identities.2
    exact ⟨symbol, table, found, identities.1, owned, identity⟩
  obtain ⟨symbol, _, found, here, _, _⟩ := numbers "resource.data.name" 3 (by rw [type?_compile]; cbv)
  obtain ⟨another, table, had, there, owned, one⟩ :=
    numbers "request.name" 3 (by rw [type?_compile]; cbv)
  obtain ⟨third, last, stands, apart, taken, two⟩ :=
    numbers "resource.tag" 7 (by rw [type?_compile]; cbv)
  have dots : ¬ Plain "resource.data.name" ∧ ¬ Plain "request.name" ∧ ¬ Plain "resource.tag" := by
    simp [Plain]
  refine ⟨sharing_distinct, sharing_undotted, sharing_acyclic, dots.1, dots.2.1, dots.2.2, symbol,
    another, third, found, had, stands, ?_, ?_⟩
  · obtain ⟨place, target, site, leads, objects, same, _⟩ := same_object_iff_same_site sharing_distinct
      sharing_undotted sharing_acyclic dots.1 dots.2.1 found had
    have equal := objects.mp (here.trans there.symm)
    exact ⟨place, site, equal ▸ leads, same equal⟩
  · obtain ⟨place, target, site, leads, objects, _, tables⟩ := same_object_iff_same_site sharing_distinct
      sharing_undotted sharing_acyclic dots.2.1 dots.2.2 had stands
    obtain ⟨source, origin, ends, stops, methods, _⟩ := tables table last owned taken
    have equal := methods.mp (one.trans two.symm)
    refine ⟨place, target, site, leads, ?_, source, ends, equal ▸ stops⟩
    intro same
    have identical := objects.mpr same
    omega

end SymbolTable

end RulesAssist
