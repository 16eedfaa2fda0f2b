import RulesAssist.Grammar.Declaration

/-! Compiled methods: their documentation, their signature and the snippet that calls them. -/

set_option autoImplicit false

namespace RulesAssist

/-- A value, and the identity of the object that holds it. Two objects may hold equal values. -/
structure Shared (Content : Type) where
  identity : Nat
  content : Content
  deriving DecidableEq, Repr

def placeholder (index : Nat) (label : String) : String :=
  "$\x7b" ++ toString index ++ ":" ++ label ++ "\x7d"

def placeholders (index : Nat) : List String → String
  | [] => ""
  | [label] => placeholder index label
  | label :: rest => placeholder index label ++ ", " ++ placeholders (index + 1) rest

/-- A call with a place for each parameter; the cursor ends up behind it. -/
def snippetFor (name : String) (parameters : List String) : String :=
  name ++ "(" ++ placeholders 1 parameters ++ ")$0"

/-- A method has a snippet exactly if its parameters are declared. -/
structure MethodInfo where
  about : String
  parameters : Option (List String)
  returns : Option String
  snippet : Option String
  deriving DecidableEq, Repr

namespace MethodInfo

def ofDecl (name : String) (decl : MethodDecl) : MethodInfo :=
  { about := decl.about
    parameters := decl.parameters
    returns := decl.returns
    snippet := decl.parameters.map (snippetFor name) }

def bullet : String := "- "

/-- A text as the first item of a bullet list, unless it is one already. -/
def bulleted (about : String) : String :=
  if bullet.toList.isPrefixOf about.toList then about else bullet ++ about

def merge (info : MethodInfo) (about : String) : MethodInfo :=
  { info with about := bulleted info.about ++ "\n" ++ bullet ++ about }

end MethodInfo

abbrev MethodTable := List (String × Shared MethodInfo)

end RulesAssist
