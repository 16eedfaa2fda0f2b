/-! A grammar as its author writes it: access modifiers, and types with methods and nested fields.

Maps are lists of pairs in authoring order. Nothing here is derived: snippets, inherited members
and resolved includes come from compilation.
-/

set_option autoImplicit false

namespace RulesAssist

structure MethodDecl where
  about : String
  parameters : Option (List String)
  returns : Option String
  deriving DecidableEq, Repr

/-- A type; with a basic type named, it takes its methods and fields from there. -/
structure TypeDecl where
  about : String
  methods : Option (List (String × MethodDecl))
  fields : Option (List (String × TypeDecl))
  basicTypeRef : Option String

/-- A keyword that may follow `allow`; it may stand for other modifiers too. -/
structure ModifierDecl where
  name : String
  about : String
  includeNames : Option (List String)
  deriving DecidableEq, Repr

/-- Basic types are shared by the types that name them; types are reached from rule expressions. -/
structure Grammar where
  accessModifiers : List ModifierDecl
  basicTypes : List (String × TypeDecl)
  types : List (String × TypeDecl)

def dotted (path key : String) : String :=
  path ++ "." ++ key

mutual

def TypeDecl.references : TypeDecl → List String
  | ⟨_, _, none, basic⟩ => basic.toList
  | ⟨_, _, some fields, basic⟩ => basic.toList ++ fieldReferences fields

def fieldReferences : List (String × TypeDecl) → List String
  | [] => []
  | (_, field) :: rest => field.references ++ fieldReferences rest

end

end RulesAssist
