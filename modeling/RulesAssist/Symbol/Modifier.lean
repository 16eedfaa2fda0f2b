import RulesAssist.Grammar.Declaration

/-! Compiled access modifiers, with the modifiers that each of them includes. -/

set_option autoImplicit false

namespace RulesAssist

/-- A compiled modifier. Its place in the list is its identity. -/
structure ModifierSymbol where
  place : Nat
  name : String
  about : String
  includeNames : Option (List String)
  includes : Option (List ModifierSymbol)

namespace ModifierSymbol

abbrev Finished := List (Nat × ModifierSymbol)

/-- Resolve included names in order. A name that no modifier bears is left out, and so is one whose
first bearer cannot be had. -/
def includesOf (decls : List ModifierDecl)
    (resolve : Nat → Finished → Option ModifierSymbol × Finished) :
    List String → Finished → List ModifierSymbol × Finished
  | [], finished => ([], finished)
  | name :: rest, finished =>
    match decls.findIdx? (·.name == name) with
    | none => includesOf decls resolve rest finished
    | some target =>
      let (found, finished) := resolve target finished
      let (others, finished) := includesOf decls resolve rest finished
      (found.toList ++ others, finished)

/-- Compile the modifier at a place once. While it is being compiled it cannot be had, and at most
as many can be under way as there are places. -/
def resolve (decls : List ModifierDecl) :
    Nat → List Nat → Nat → Finished → Option ModifierSymbol × Finished
  | depth, underWay, place, finished =>
    match finished.lookup place with
    | some done => (some done, finished)
    | none =>
      match depth, decls[place]? with
      | depth + 1, some decl =>
        if place ∈ underWay then (none, finished)
        else
          -- A modifier compiled inside a circle is finished without the includes that lead back.
          match decl.includeNames with
          | none =>
            let symbol : ModifierSymbol := ⟨place, decl.name, decl.about, none, none⟩
            (some symbol, (place, symbol) :: finished)
          | some names =>
            let (includes, finished) :=
              includesOf decls (resolve decls depth (place :: underWay)) names finished
            let symbol : ModifierSymbol := ⟨place, decl.name, decl.about, some names, some includes⟩
            (some symbol, (place, symbol) :: finished)
      | _, _ => (none, finished)

def compileFrom (decls : List ModifierDecl) : List Nat → Finished → List ModifierSymbol
  | [], _ => []
  | place :: rest, finished =>
    let (symbol, finished) := resolve decls decls.length [] place finished
    symbol.toList ++ compileFrom decls rest finished

def compile (decls : List ModifierDecl) : List ModifierSymbol :=
  compileFrom decls (List.range decls.length) []

end ModifierSymbol

end RulesAssist
