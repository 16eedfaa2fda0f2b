import RulesAssist.Proofs.Symbol.OwnMethods

/-! What a method name stands for.

If no reference is left out, the tables that are made are those of the authored methods, each made once and
in the order in which they are listed. So a name stands for its definitions in this order: the only one
itself, or a new object with the descriptions of all. How many types inherit a table makes no difference.
-/

set_option autoImplicit false

namespace RulesAssist

theorem Grammar.acyclic_of_bare {grammar : Grammar}
    (bare : ∀ entry ∈ grammar.basicTypes, entry.2.references = []) : grammar.Acyclic := by
  intro name circle
  obtain ⟨target, ⟨decl, found, named⟩, _⟩ := Relation.TransGen.head'_iff.mp circle
  rw [bare _ (Keyed.mem_of_lookup found)] at named
  cases named

namespace Workshop

variable {grammar : Grammar} {annals : Annals} {tables : Tables} {name : String} {place : Occurrence}
  {methods : List (String × MethodDecl)} {table : Shared MethodTable}

theorem named_of_records {authored : List Authored} (records : List.Forall₂ Records tables authored)
    (name : String) :
    List.Forall₂ (fun method definition => method.content = MethodInfo.ofDecl name definition.2)
      (tables.methods.named name)
      (authored.flatMap fun entry =>
        (entry.2.filter (·.1 == name)).map fun method => (entry.1, method.2)) := by
  induction records with
  | nil => exact .nil
  | @cons entry source others rest same _ ih =>
    rw [List.flatMap_cons]
    have split : Tables.methods (entry :: others) = entry.2.content ++ Tables.methods others :=
      List.flatMap_cons
    rw [split, Methods.named_append]
    refine List.rel_append ?_ ih
    unfold Methods.named
    rw [List.forall₂_map_left_iff, List.forall₂_map_right_iff]
    have listed := contents_eq_iff.mp same.2
    generalize entry.2.content = content at listed
    generalize source.2 = methods at listed
    induction listed with
    | nil => exact .nil
    | @cons method decl _ _ equal _ ih =>
      rw [List.filter_cons, List.filter_cons, equal.1]
      split
      · rename_i here
        exact .cons (beq_iff_eq.mp here ▸ equal.2) ih
      · exact ih

/-- What a name stands for, by its definitions. -/
structure Documents (name : String) (first : MethodDecl) (others : List (Occurrence × MethodDecl))
    (info : MethodInfo) : Prop where
  parameters : info.parameters = first.parameters
  returns : info.returns = first.returns
  snippet : info.snippet = first.parameters.map (snippetFor name)
  alone : others = [] → info.about = first.about
  listed : others ≠ [] → info.about = MethodInfo.bulleted first.about ++
    String.join (others.map fun definition => "\n- " ++ definition.2.about)

/-- The first definition is entered itself, and the others are merged into a new object. -/
theorem documents_of_entered {made : Methods} {methods : List (Shared MethodInfo)}
    {known : Option (Shared MethodInfo)} (entered : Entered made methods known)
    {definitions : List (Occurrence × MethodDecl)}
    (all : List.Forall₂ (fun method definition => method.content = MethodInfo.ofDecl name definition.2)
      methods definitions) {method : Shared MethodInfo} (found : known = some method) :
    ∃ place first others, definitions = (place, first) :: others ∧
      Documents name first others method.content ∧ (others = [] → methods = [method]) ∧
      (others ≠ [] → ∀ entry ∈ made, entry.2.identity ≠ method.identity) := by
  cases entered with
  | nothing => cases found
  | itself =>
    cases found
    cases all with
    | cons same rest =>
      cases rest
      refine ⟨_, _, [], rfl, ?_, fun _ => rfl, fun some => absurd rfl some⟩
      rw [same]
      exact ⟨rfl, rfl, rfl, fun _ => rfl, fun some => absurd rfl some⟩
  | @merged first second _ others new content =>
    cases found
    cases all with
    | @cons _ definition _ rest same following =>
      obtain ⟨parameters, returns, snippet⟩ := merged_keeps first (second :: others)
      rw [← content, same] at parameters returns snippet
      have abouts : (second :: others).map (fun method => "\n- " ++ method.content.about) =
          rest.map fun definition => "\n- " ++ definition.2.about := by
        rw [← List.forall₂_eq_eq_eq, List.forall₂_map_left_iff, List.forall₂_map_right_iff]
        exact following.imp fun _ _ equal => congrArg (fun info => "\n- " ++ info.about) equal
      -- Merged methods are two at least.
      have some : rest ≠ [] := by
        rintro rfl
        cases following
      refine ⟨definition.1, definition.2, rest, rfl, ?_, fun none => absurd none some, fun _ => new⟩
      refine ⟨parameters, returns, snippet, fun none => absurd none some, fun _ => ?_⟩
      rw [content, merged_about, same, abouts]
      rfl

theorem Chronicle.listed (chronicle : Chronicle grammar annals) {path : String} {symbol : TypeSymbol}
    (found : (SymbolTable.compile grammar).type? path = some symbol)
    (had : symbol.methods = some table) : ∃ place, (place, table) ∈ annals.tables :=
  SymbolTable.holds_of_type? chronicle.drawn found table had

theorem Chronicle.listed_at (chronicle : Chronicle grammar annals) {decl : TypeDecl}
    {symbol : TypeSymbol} (declared : grammar.declared? place = some decl)
    (bare : decl.basicTypeRef = none) (stands : objectAt? grammar place = some symbol)
    (had : symbol.methods = some table) : ∃ owner, (owner, table) ∈ annals.tables := by
  refine (chronicle.takes declared bare stands).listed (fun path held found => ?_) had
  obtain ⟨entry, _, _, member⟩ := chronicle.stocked path held found
  exact ⟨entry.1, member⟩

theorem exists_of_lookup (shows : contentsOf table.content = infosOf methods)
    {method : Shared MethodInfo} (found : table.content.lookup name = some method) :
    ∃ decl, (name, decl) ∈ methods := by
  obtain ⟨⟨other, decl⟩, member, same, _⟩ :=
    exists_of_forall₂ (contents_eq_iff.mp shows) (Keyed.mem_of_lookup found)
  cases same
  exact ⟨decl, member⟩

theorem lookup_of_exists (shows : contentsOf table.content = infosOf methods) {decl : MethodDecl}
    (member : (name, decl) ∈ methods) : ∃ method, table.content.lookup name = some method := by
  cases found : table.content.lookup name with
  | some method => exact ⟨method, rfl⟩
  | none =>
    obtain ⟨entry, listed, same, _⟩ := exists_of_forall₂ (contents_eq_iff.mp shows).flip member
    have apart := List.lookup_eq_none_iff.mp found entry listed
    simp [same] at apart

theorem sourceOf_mem (listed : (place, methods) ∈ grammar.authored) :
    grammar.sourceOf place methods ∈ grammar.authored := by
  unfold Grammar.sourceOf
  split
  · cases holds : grammar.holder? place.path with
    | none => exact listed
    | some last => exact List.mem_append_left _ (Grammar.mem_of_holder? holds).1
  · exact listed

/-- The only definition of a name is the method of its type if and only if the type shows the methods of its
own place. -/
theorem method?_iff_of_source (distinct : grammar.Distinct)
    (chronicle : Chronicle grammar annals) {method : MethodDecl} {entered : Shared MethodInfo}
    (alone : grammar.definitions name = [(place, method)])
    (named : annals.tables.methods.named name = [entered]) {decl : TypeDecl} {symbol : TypeSymbol}
    (declared : grammar.declared? place = some decl) (own : decl.methods = some methods)
    (stands : objectAt? grammar place = some symbol) :
    symbol.method? name = some entered ↔ (grammar.sourceOf place methods).1 = place := by
  obtain ⟨others, listed, member⟩ := Grammar.mem_definitions.mp (alone ▸ List.mem_singleton_self _)
  -- What is authored at the place are the methods of its only declaration.
  have same : ∀ {source : Authored}, source ∈ grammar.authored → source.1 = place →
      source.2 = methods ∧ decl.basicTypeRef = none := by
    rintro ⟨_, methods'⟩ known rfl
    obtain ⟨origin, found, bare, theirs⟩ := Grammar.declared_of_authored distinct known
    rw [declared, Option.some.injEq] at found
    subst found
    exact ⟨Option.some.inj (theirs.symm.trans own), bare⟩
  obtain ⟨equal, bare⟩ := same listed rfl
  change others = methods at equal
  subst equal
  have contents := contents_of_source distinct declared bare stands
  rw [own, Option.map_some] at contents
  obtain ⟨table, had, shows⟩ := Option.map_eq_some_iff.mp contents
  have source := sourceOf_mem listed
  unfold TypeSymbol.method?
  rw [had, Option.bind_some]
  constructor
  · -- The source defines the name, and only one place does.
    intro found
    obtain ⟨definition, known⟩ := exists_of_lookup shows found
    have defined := Grammar.mem_definitions.mpr ⟨_, source, known⟩
    rw [alone] at defined
    exact congrArg Prod.fst (List.mem_singleton.mp defined)
  · -- Whatever the type has under the name was made, and only one method of the name was.
    intro here
    rw [(same source here).1] at shows
    obtain ⟨held, found⟩ := lookup_of_exists shows member
    obtain ⟨owner, tabled⟩ := chronicle.listed_at declared bare stands had
    have made : held ∈ annals.tables.methods.named name :=
      List.mem_map.mpr ⟨(name, held), List.mem_filter.mpr
        ⟨Tables.mem_methods tabled (Keyed.mem_of_lookup found), beq_self_eq_true name⟩, rfl⟩
    rw [named] at made
    rw [found, List.mem_singleton.mp made]

/-- In any grammar that leaves no reference out, a method name stands for its definitions: those in basic
types before those in roots, each tree from the top. -/
theorem method_documents_definitions (distinct : grammar.Distinct) (resolved : grammar.Resolved)
    (acyclic : grammar.Acyclic) (name : String) :
    (((SymbolTable.compile grammar).method? name).isSome ↔ grammar.definitions name ≠ []) ∧
      (∀ entered, (SymbolTable.compile grammar).method? name = some entered →
        ∃ place first others, grammar.definitions name = (place, first) :: others ∧
          Documents name first others entered.content ∧
          (place.inBasicType = false → ∃ symbol, objectAt? grammar place = some symbol) ∧
          (others = [] → ∀ decl methods symbol, grammar.declared? place = some decl →
            decl.methods = some methods → objectAt? grammar place = some symbol →
            (symbol.method? name = some entered ↔ (grammar.sourceOf place methods).1 = place)) ∧
          (others ≠ [] → ∀ path symbol table, (SymbolTable.compile grammar).type? path = some symbol →
            symbol.methods = some table →
            ∀ entry ∈ table.content, entry.2.identity ≠ entered.identity)) ∧
      ∀ path symbol table, (SymbolTable.compile grammar).type? path = some symbol →
        symbol.methods = some table → ∀ entry ∈ table.content,
          ∃ definition ∈ grammar.definitions entry.1,
            entry.2.content = MethodInfo.ofDecl entry.1 definition.2 := by
  obtain ⟨annals, chronicle⟩ := exists_chronicle distinct
  have records := chronicle.records resolved acyclic
  have all : List.Forall₂ (fun method definition =>
      method.content = MethodInfo.ofDecl name definition.2)
      (annals.tables.methods.named name) (grammar.definitions name) :=
    named_of_records records name
  have entered := chronicle.kept.cached.entered name
  refine ⟨?_, ?_, ?_⟩
  · change ((run grammar).2.methods.lookup name).isSome ↔ _
    cases found : (run grammar).2.methods.lookup name with
    | none =>
      rw [found] at entered
      rw [entered.eq_nil] at all
      simp [List.forall₂_nil_left_iff.mp all]
    | some method =>
      obtain ⟨_, _, _, split, _⟩ := documents_of_entered entered all found
      simp [split]
  · intro method found
    obtain ⟨place, first, others, split, documents, alone, new⟩ := documents_of_entered entered all found
    refine ⟨place, first, others, split, documents, ?_, ?_, ?_⟩
    · have listed : (place, first) ∈ grammar.definitions name := split ▸ List.mem_cons_self ..
      obtain ⟨methods, authored, _⟩ := Grammar.mem_definitions.mp listed
      obtain ⟨decl, declared, _⟩ := Grammar.declared_of_authored distinct authored
      exact chronicle.compiled place decl declared
    · rintro rfl decl methods symbol declared own stands
      exact method?_iff_of_source distinct chronicle split (alone rfl) declared own stands
    · intro some path symbol table known had entry member
      obtain ⟨owner, tabled⟩ := chronicle.listed known had
      exact new some entry (Tables.mem_methods tabled member)
  · intro path symbol table known had entry member
    obtain ⟨owner, tabled⟩ := chronicle.listed known had
    obtain ⟨source, authored, _, shows⟩ := exists_of_forall₂ records tabled
    obtain ⟨⟨other, decl⟩, listed, same, content⟩ :=
      exists_of_forall₂ (contents_eq_iff.mp shows) member
    refine ⟨(source.1, decl), Grammar.mem_definitions.mpr ⟨source.2, authored, same ▸ listed⟩, ?_⟩
    rw [content, same]

/-- One name in two basic types, one of them inherited twice, and in a root. -/
def gathering : Grammar where
  accessModifiers := []
  basicTypes :=
    [("text", ⟨"T", some [("size", ⟨"counts", some ["unit"], none⟩)], none, none⟩),
      ("list", ⟨"L", none, some [("last", ⟨"E", some [("size", ⟨"- of it", none, none⟩)], none, none⟩)],
        none⟩)]
  types :=
    [("note", ⟨"N", some [("size", ⟨"of all", none, none⟩)], some [("title", ⟨"H", none, none, some "text"⟩)],
        none⟩),
      ("name", ⟨"M", none, none, some "text"⟩), ("row", ⟨"R", none, none, some "list"⟩)]

theorem gathering_distinct : gathering.Distinct where
  basicTypes := by decide
  types := by decide
  basicFields := by simp [gathering, TypeDecl.Throughout, fieldsThroughout, Keyed.keys]
  fields := by simp [gathering, TypeDecl.Throughout, fieldsThroughout, Keyed.keys]

theorem gathering_resolved : gathering.Resolved := by
  simp [Grammar.Resolved, gathering, TypeDecl.references, fieldReferences, Keyed.lookup_cons]

theorem gathering_acyclic : gathering.Acyclic :=
  Grammar.acyclic_of_bare (by simp [gathering, TypeDecl.references, fieldReferences])

theorem method_documents_definitions_gathering :
    gathering.Distinct ∧ gathering.Resolved ∧ gathering.Acyclic ∧
      ∃ entered, (SymbolTable.compile gathering).method? "size" = some entered ∧
        entered.content.parameters = some ["unit"] ∧
        entered.content.about = "- counts\n- - of it\n- of all" ∧
        ∀ path symbol table, (SymbolTable.compile gathering).type? path = some symbol →
          symbol.methods = some table → ∀ entry ∈ table.content, entry.2.identity ≠ entered.identity := by
  obtain ⟨known, documented, _⟩ :=
    method_documents_definitions gathering_distinct gathering_resolved gathering_acyclic "size"
  have definitions : gathering.definitions "size" =
      [(.basic "text", ⟨"counts", some ["unit"], none⟩), (⟨true, "list", ["last"]⟩, ⟨"- of it", none, none⟩),
        (.root "note", ⟨"of all", none, none⟩)] := by cbv
  obtain ⟨entered, found⟩ := Option.isSome_iff_exists.mp (known.mpr (by simp [definitions]))
  obtain ⟨place, first, others, split, documents, _, _, apart⟩ := documented entered found
  rw [definitions, List.cons.injEq, Prod.mk.injEq] at split
  obtain ⟨⟨rfl, rfl⟩, rfl⟩ := split
  refine ⟨gathering_distinct, gathering_resolved, gathering_acyclic, entered, found, documents.parameters,
    (documents.listed (by simp)).trans (by decide), apart (by simp)⟩

theorem colliding_distinct : colliding.Distinct where
  basicTypes := by decide
  types := by decide
  basicFields := by simp [colliding, TypeDecl.Throughout, fieldsThroughout, Keyed.keys]
  fields := by simp [colliding, TypeDecl.Throughout]

theorem colliding_resolved : colliding.Resolved := by
  simp [Grammar.Resolved, colliding, TypeDecl.references, fieldReferences, Keyed.lookup_cons]

theorem colliding_acyclic : colliding.Acyclic :=
  Grammar.acyclic_of_bare (by simp [colliding, TypeDecl.references, fieldReferences])

/-- The only definition of a name is not the method of its own type. -/
theorem definition_missing_from_type :
    colliding.Distinct ∧ colliding.Resolved ∧ colliding.Acyclic ∧
      colliding.definitions "get" = [(⟨true, "a", ["b"]⟩, ⟨"", none, none⟩)] ∧
      ((SymbolTable.compile colliding).method? "get").isSome ∧
      ∃ symbol, objectAt? colliding ⟨true, "a", ["b"]⟩ = some symbol ∧
        (SymbolTable.compile colliding).type? "t.b" = some symbol ∧ symbol.method? "get" = none := by
  have there : (objectAt? colliding ⟨true, "a", ["b"]⟩).map (fun symbol => symbol.method? "get") =
      some none := by cbv
  obtain ⟨symbol, stands, missing⟩ := Option.map_eq_some_iff.mp there
  refine ⟨colliding_distinct, colliding_resolved, colliding_acyclic, by cbv, by cbv, symbol, stands, ?_,
    missing⟩
  rw [SymbolTable.type?_compile, ← stands]
  cbv

end Workshop

end RulesAssist
