import RulesAssist.Symbol.Method

/-! Compiled types, each an object of its own, reached through the fields of others. -/

set_option autoImplicit false

namespace RulesAssist

/-- A compiled type. Its methods are a table that other types may share, and so are its fields. -/
structure TypeSymbol where
  identity : Nat
  about : String
  methods : Option (Shared MethodTable)
  fields : Option (List (String × TypeSymbol))
  basicTypeRef : Option String

namespace TypeSymbol

def method? (symbol : TypeSymbol) (name : String) : Option (Shared MethodInfo) :=
  symbol.methods.bind fun table => table.content.lookup name

def field? (symbol : TypeSymbol) (name : String) : Option TypeSymbol :=
  symbol.fields.bind fun fields => fields.lookup name

/-- The same methods under the same names, in any order. -/
def agreeOnMethods : Option (Shared MethodTable) → Option (Shared MethodTable) → Bool
  | none, none => true
  | some left, some right =>
    left.content.length == right.content.length &&
      left.content.all fun entry =>
        (right.content.lookup entry.1).map (·.content) == some entry.2.content
  | _, _ => false

mutual

/-- The two types say the same and have equal members, whichever objects hold them. -/
def agrees : TypeSymbol → TypeSymbol → Bool
  | ⟨_, about, methods, none, basic⟩, other =>
    about == other.about && agreeOnMethods methods other.methods && basic == other.basicTypeRef &&
      other.fields.isNone
  | ⟨_, about, methods, some fields, basic⟩, other =>
    about == other.about && agreeOnMethods methods other.methods && basic == other.basicTypeRef &&
      match other.fields with
      | none => false
      | some others => fields.length == others.length && fieldsAgree fields others

def fieldsAgree : List (String × TypeSymbol) → List (String × TypeSymbol) → Bool
  | [], _ => true
  | (key, field) :: rest, others =>
    (match others.lookup key with
      | none => false
      | some other => field.agrees other) && fieldsAgree rest others

end

mutual

/-- A type under its short name and under its path, then its fields in order. -/
def registrations (name path : String) : TypeSymbol → List (String × TypeSymbol)
  | ⟨identity, about, methods, none, basic⟩ =>
    [(name, ⟨identity, about, methods, none, basic⟩), (path, ⟨identity, about, methods, none, basic⟩)]
  | ⟨identity, about, methods, some fields, basic⟩ =>
    (name, ⟨identity, about, methods, some fields, basic⟩) ::
      (path, ⟨identity, about, methods, some fields, basic⟩) :: fieldRegistrations path fields

def fieldRegistrations (path : String) : List (String × TypeSymbol) → List (String × TypeSymbol)
  | [] => []
  | (key, field) :: rest =>
    field.registrations key (dotted path key) ++ fieldRegistrations path rest

end

end TypeSymbol

end RulesAssist
