import RulesAssist.Grammar.Declaration
import RulesAssist.Grammar.Walk

/-! Problems of a grammar that compilation puts up with: references that lead nowhere or in a circle,
and methods that a basic type replaces.
-/

set_option autoImplicit false

namespace RulesAssist

inductive Warning where
  | unknownBasicType (path name : String)
  | basicTypeCycle (name : String)
  | replacedMethods (path : String)
  | unknownInclude (modifier name : String)
  | includeCycle (modifier : String)
  deriving DecidableEq, Repr

namespace Warning

def quoted (name : String) : String :=
  "`" ++ name ++ "`"

def message : Warning → String
  | .unknownBasicType path name =>
    quoted path ++ " inherits from unknown basic type " ++ quoted name
  | .basicTypeCycle name => "basic type " ++ quoted name ++ " inherits from itself"
  | .replacedMethods path =>
    quoted path ++ " declares methods that are replaced by its basic type"
  | .unknownInclude modifier name =>
    "access modifier " ++ quoted modifier ++ " includes unknown modifier " ++ quoted name
  | .includeCycle modifier => "access modifier " ++ quoted modifier ++ " includes itself"

end Warning

namespace Grammar

/-- The warnings about one type itself, without its fields. -/
def ownWarnings (grammar : Grammar) (path : String) (methods : Option (List (String × MethodDecl))) :
    Option String → List Warning
  | none => []
  | some basic =>
    if (grammar.basicTypes.lookup basic).isNone then [.unknownBasicType path basic]
    else if methods.isSome then [.replacedMethods path]
    else []

mutual

def typeWarnings (grammar : Grammar) (path : String) : TypeDecl → List Warning
  | ⟨_, methods, none, basic⟩ => grammar.ownWarnings path methods basic
  | ⟨_, methods, some fields, basic⟩ =>
    grammar.ownWarnings path methods basic ++ grammar.fieldWarnings path fields

def fieldWarnings (grammar : Grammar) (path : String) : List (String × TypeDecl) → List Warning
  | [] => []
  | (key, field) :: rest =>
    grammar.typeWarnings (dotted path key) field ++ grammar.fieldWarnings path rest

end

def basicTypeGraph (grammar : Grammar) : NameGraph :=
  ⟨grammar.basicTypes.map fun entry => (entry.1, entry.2.references)⟩

def hasModifier (grammar : Grammar) (name : String) : Bool :=
  grammar.accessModifiers.any (·.name == name)

def includedBy (grammar : Grammar) (name : String) : List String :=
  (grammar.accessModifiers.filter (·.name == name)).flatMap fun modifier =>
    (modifier.includeNames.getD []).filter grammar.hasModifier

def modifierGraph (grammar : Grammar) : NameGraph :=
  ⟨grammar.accessModifiers.map fun modifier => (modifier.name, grammar.includedBy modifier.name)⟩

def unknownIncludes (grammar : Grammar) (modifier : ModifierDecl) : List Warning :=
  ((modifier.includeNames.getD []).filter fun name => !grammar.hasModifier name).map
    (.unknownInclude modifier.name ·)

def basicTypeCycles (grammar : Grammar) : List Warning :=
  let graph := grammar.basicTypeGraph
  (grammar.basicTypes.filter fun entry => graph.returnsTo entry.1).map (.basicTypeCycle ·.1)

def includeCycles (grammar : Grammar) : List Warning :=
  let graph := grammar.modifierGraph
  (grammar.accessModifiers.filter fun modifier => graph.returnsTo modifier.name).map
    (.includeCycle ·.name)

/-- Every reference that compilation may drop, and every method list that it replaces. -/
def warnings (grammar : Grammar) : List Warning :=
  grammar.basicTypes.flatMap (fun entry => grammar.typeWarnings entry.1 entry.2) ++
    grammar.types.flatMap (fun entry => grammar.typeWarnings entry.1 entry.2) ++
    grammar.basicTypeCycles ++
    grammar.accessModifiers.flatMap grammar.unknownIncludes ++
    grammar.includeCycles

end Grammar

end RulesAssist
