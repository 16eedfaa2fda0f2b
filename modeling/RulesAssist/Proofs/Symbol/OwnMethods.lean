import RulesAssist.Proofs.Grammar.Reading
import RulesAssist.Proofs.Symbol.Chronicle

/-! The methods of a type that inherits nothing.

A root, or a field inside one, has the methods that it declares. Inside a basic type they are found by the
path, and where the names have dots, two places may have one path. Both then have the methods of the later
one.
-/

set_option autoImplicit false

namespace RulesAssist

theorem infosOf_inj {methods others : List (String × MethodDecl)} :
    infosOf methods = infosOf others ↔ methods = others := by
  refine List.map_inj_right ?_
  rintro ⟨name, about, parameters, returns⟩ ⟨_, _, _, _⟩ same
  simp only [MethodInfo.ofDecl, Prod.mk.injEq, MethodInfo.mk.injEq] at same
  obtain ⟨rfl, rfl, rfl, rfl, _⟩ := same
  rfl

namespace Grammar

variable {grammar : Grammar} {place : Occurrence} {decl : TypeDecl}
  {methods : List (String × MethodDecl)}

theorem sourceOf_undotted (distinct : grammar.Distinct) (undotted : grammar.Undotted)
    (declared : grammar.declared? place = some decl) (own : decl.methods = some methods) :
    (grammar.sourceOf place methods).2 = methods := by
  unfold sourceOf
  split
  · rename_i inside
    cases holds : grammar.holder? place.path with
    | none => rfl
    | some last =>
      obtain ⟨member, path⟩ := mem_of_holder? holds
      obtain ⟨within, other, found, _, theirs⟩ := declared_of_basicAuthored distinct member
      -- Paths of keys without dots belong to one place each.
      have same : last.1 = place := (undotted_of_declared found undotted).path_inj
        (undotted_of_declared declared undotted) (within.trans inside.symm) path
      rw [same, declared, Option.some.injEq] at found
      subst found
      exact Option.some.inj (theirs.symm.trans own)
  · rfl

end Grammar

namespace Workshop

variable {grammar : Grammar} {place : Occurrence} {decl : TypeDecl} {symbol : TypeSymbol}

theorem Takes.contents {tables : Tables} {methods : Option (List (String × MethodDecl))}
    {taken : Option (Shared MethodTable)} {stock : Stock} (takes : Takes stock tables place methods taken)
    (held : Option.Rel (fun table last => contentsOf table.content = infosOf last.2)
      (stock.lookup place.path) (grammar.holder? place.path)) :
    taken.map (fun table => contentsOf table.content) =
      methods.map fun methods => infosOf (grammar.sourceOf place methods).2 := by
  unfold Grammar.sourceOf
  generalize grammar.holder? place.path = last at held ⊢
  cases takes with
  | nothing => rfl
  | stocked inside found =>
    rw [found] at held
    cases held with
    | some contents =>
      rw [Option.map_some, Option.map_some, contents, if_pos inside]
      rfl
  | made missing _ contents =>
    rw [Option.map_some, Option.map_some, contents]
    split
    · rename_i inside
      rw [missing inside] at held
      cases held
      rfl
    · rfl

/-- A type that inherits nothing has a table if it declares methods, and the table shows those of its
source. -/
theorem contents_of_source (distinct : grammar.Distinct)
    (declared : grammar.declared? place = some decl) (bare : decl.basicTypeRef = none)
    (stands : objectAt? grammar place = some symbol) :
    symbol.methods.map (fun table => contentsOf table.content) =
      decl.methods.map fun methods => infosOf (grammar.sourceOf place methods).2 := by
  obtain ⟨annals, chronicle⟩ := exists_chronicle distinct
  exact (chronicle.takes declared bare stands).contents (chronicle.held place.path)

/-- Every declaration of a root that names no basic type is compiled. Wherever such a declaration is
compiled, also inside a basic type, it has a table if it declares methods, and none otherwise. The table
shows the methods of its source: so it shows its own methods if and only if these are the ones of the source,
and this is always so if no name has a dot. -/
theorem own_methods_iff_of_source {text : String} (read : Grammar.parse text = some grammar)
    (declared : grammar.declared? place = some decl) (bare : decl.basicTypeRef = none) :
    (place.inBasicType = false → ∃ symbol, objectAt? grammar place = some symbol) ∧
      ∀ symbol, objectAt? grammar place = some symbol →
        (decl.methods = none → symbol.methods = none) ∧
        ∀ methods, decl.methods = some methods → ∃ table, symbol.methods = some table ∧
          contentsOf table.content = infosOf (grammar.sourceOf place methods).2 ∧
          (contentsOf table.content = infosOf methods ↔
            (grammar.sourceOf place methods).2 = methods) ∧
          (grammar.Undotted → (grammar.sourceOf place methods).2 = methods) := by
  have distinct := Grammar.distinct_of_parse read
  refine ⟨?_, fun symbol stands => ?_⟩
  · obtain ⟨_, chronicle⟩ := exists_chronicle distinct
    exact chronicle.compiled place decl declared
  · have contents := contents_of_source distinct declared bare stands
    constructor
    · intro none
      rw [none] at contents
      exact Option.map_eq_none_iff.mp contents
    · intro methods own
      rw [own] at contents
      obtain ⟨table, had, shows⟩ := Option.map_eq_some_iff.mp contents
      refine ⟨table, had, shows, ?_, fun undotted => ?_⟩
      · rw [shows]
        exact infosOf_inj
      · exact Grammar.sourceOf_undotted distinct undotted declared own

/-- A field of a basic type, and another basic type of the same path. -/
def colliding : Grammar where
  accessModifiers := []
  basicTypes :=
    [("a", ⟨"", none, some [("b", ⟨"", some [("get", ⟨"", none, none⟩)], none, none⟩)], none⟩),
      ("a.b", ⟨"", some [("put", ⟨"", none, none⟩)], none, none⟩)]
  types := [("t", ⟨"", none, none, some "a"⟩)]

def collidingText : String :=
  "\x7b\"basicTypes\":\x7b" ++
    "\"a\":\x7b\"fields\":\x7b\"b\":\x7b\"methods\":\x7b\"get\":\x7b\x7d\x7d\x7d\x7d\x7d," ++
    "\"a.b\":\x7b\"methods\":\x7b\"put\":\x7b\x7d\x7d\x7d\x7d," ++
    "\"types\":\x7b\"t\":\x7b\"basicTypeRef\":\"a\"\x7d\x7d\x7d"

set_option maxRecDepth 100000 in
theorem parse_colliding : Grammar.parse collidingText = some colliding := by
  cbv

/-- The field has the method of the other basic type. -/
theorem own_methods_iff_of_source_colliding :
    Grammar.parse collidingText = some colliding ∧
      colliding.declared? ⟨true, "a", ["b"]⟩ =
        some ⟨"", some [("get", ⟨"", none, none⟩)], none, none⟩ ∧
      ∃ symbol table, objectAt? colliding ⟨true, "a", ["b"]⟩ = some symbol ∧
        symbol.methods = some table ∧
        contentsOf table.content = infosOf [("put", ⟨"", none, none⟩)] := by
  have declared : colliding.declared? ⟨true, "a", ["b"]⟩ =
      some ⟨"", some [("get", ⟨"", none, none⟩)], none, none⟩ := rfl
  have stands : (objectAt? colliding ⟨true, "a", ["b"]⟩).isSome := by cbv
  obtain ⟨symbol, there⟩ := Option.isSome_iff_exists.mp stands
  obtain ⟨table, had, shows, _⟩ :=
    ((own_methods_iff_of_source parse_colliding declared rfl).2 symbol there).2 _ rfl
  have source : (colliding.sourceOf ⟨true, "a", ["b"]⟩ [("get", ⟨"", none, none⟩)]).2 =
      [("put", ⟨"", none, none⟩)] := by cbv
  exact ⟨parse_colliding, declared, symbol, table, there, had, shows.trans (congrArg infosOf source)⟩

/-- A definition that names no basic type, and a compiled type of it with other methods. -/
theorem methods_of_another_place :
    ∃ text grammar place decl symbol, Grammar.parse text = some grammar ∧
      grammar.declared? place = some decl ∧ decl.basicTypeRef = none ∧
      objectAt? grammar place = some symbol ∧
      symbol.methods.map (fun table => contentsOf table.content) ≠ decl.methods.map infosOf := by
  have shown : (objectAt? colliding ⟨true, "a", ["b"]⟩).map (fun symbol =>
      symbol.methods.map fun table => contentsOf table.content) =
        some (some (infosOf [("put", ⟨"", none, none⟩)])) := by cbv
  obtain ⟨symbol, there, methods⟩ := Option.map_eq_some_iff.mp shown
  refine ⟨collidingText, colliding, ⟨true, "a", ["b"]⟩, _, symbol, parse_colliding, rfl, rfl, there, ?_⟩
  rw [methods]
  decide

end Workshop

end RulesAssist
