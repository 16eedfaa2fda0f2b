import RulesAssist.Symbol.Compilation
import RulesAssist.Symbol.Modifier
import Std.Data.HashMap

/-! The symbol table: types by short name and by path, methods by name, and the access modifiers. -/

set_option autoImplicit false

namespace RulesAssist

inductive Symbol where
  | modifier (symbol : ModifierSymbol)
  | type (symbol : TypeSymbol)
  | method (symbol : Shared MethodInfo)

def Symbol.about : Symbol → String
  | .modifier symbol => symbol.about
  | .type symbol => symbol.about
  | .method symbol => symbol.content.about

structure SymbolTable where
  types : Std.HashMap String TypeSymbol
  methods : MethodTable
  accessModifiers : List ModifierSymbol
  omissions : List Omission

namespace SymbolTable

/-- All names of the compiled roots, in the order in which they are given out. -/
def registrationsOf (roots : List (String × TypeSymbol)) : List (String × TypeSymbol) :=
  roots.flatMap fun root => root.2.registrations root.1 root.1

/-- A name stands for the last type that it was given to. -/
def register (registrations : List (String × TypeSymbol)) : Std.HashMap String TypeSymbol :=
  registrations.foldl (fun types entry => types.insert entry.1 entry.2) ∅

def compile (grammar : Grammar) : SymbolTable :=
  let (roots, workshop) := Workshop.run grammar
  { types := register (registrationsOf roots)
    methods := workshop.methods
    accessModifiers := ModifierSymbol.compile grammar.accessModifiers
    omissions := workshop.omissions }

def type? (table : SymbolTable) (name : String) : Option TypeSymbol :=
  table.types[name]?

def method? (table : SymbolTable) (name : String) : Option (Shared MethodInfo) :=
  table.methods.lookup name

def modifier? (table : SymbolTable) (name : String) : Option ModifierSymbol :=
  table.accessModifiers.find? (·.name == name)

/-- A modifier hides a type of the same name, and a type hides a method. -/
def find? (table : SymbolTable) (name : String) : Option Symbol :=
  match table.modifier? name with
  | some symbol => some (.modifier symbol)
  | none =>
    match table.type? name with
    | some symbol => some (.type symbol)
    | none => (table.method? name).map .method

def nameCount (table : SymbolTable) : Nat :=
  table.types.size

def methodCount (table : SymbolTable) : Nat :=
  table.methods.length

/-- Every registered name with its type, ordered by code points. -/
def entries (table : SymbolTable) : List (String × TypeSymbol) :=
  table.types.toList.mergeSort fun left right => left.1 ≤ right.1

end SymbolTable

end RulesAssist
