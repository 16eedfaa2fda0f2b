import RulesAssist.Json.Value

/-! What the emulator observed when it evaluated an expression.

An observation is written as an object with one tag as its key. The empty object means that the
expression was not evaluated to its end, and an object that fits no rule is kept by its keys.
-/

set_option autoImplicit false

namespace RulesAssist.Coverage

open Json (Value)

inductive Literal where
  | null
  | bool
  | int
  | float
  | string
  | bytes
  | duration
  | timestamp
  | latlng
  | path
  deriving DecidableEq, Repr

namespace Literal

def tag : Literal → String
  | .null => "nullValue"
  | .bool => "boolValue"
  | .int => "intValue"
  | .float => "floatValue"
  | .string => "stringValue"
  | .bytes => "bytesValue"
  | .duration => "durationValue"
  | .timestamp => "timestampValue"
  | .latlng => "latlngValue"
  | .path => "pathValue"

def all : List Literal :=
  [.null, .bool, .int, .float, .string, .bytes, .duration, .timestamp, .latlng, .path]

def ofTag? (tag : String) : Option Literal :=
  all.find? fun kind => kind.tag == tag

end Literal

inductive Compound where
  | map
  | list
  | constraint
  deriving DecidableEq, Repr

namespace Compound

def tag : Compound → String
  | .map => "mapValue"
  | .list => "listValue"
  | .constraint => "constraintValue"

def all : List Compound :=
  [.map, .list, .constraint]

def ofTag? (tag : String) : Option Compound :=
  all.find? fun kind => kind.tag == tag

end Compound

inductive Observation where
  | shortCircuited
  | error (cause : String)
  | literal (kind : Literal) (value : Value)
  | compound (kind : Compound)
  | unrecognized (tags : List String)

namespace Observation

def errorTag : String := "undefined"

def causeKey : String := "causeMessage"

/-- The error of an observation: what its tag holds, unless that is null. -/
def error? (members : List (String × Value)) : Option Value :=
  match members.lookup errorTag with
  | some .null => none
  | other => other

def causeOf (found : Value) : String :=
  match found.member? causeKey with
  | some (.string cause) => cause
  | _ => ""

def literals (members : List (String × Value)) : List (Literal × Value) :=
  members.filterMap fun member => (Literal.ofTag? member.1).map (·, member.2)

/-- An error comes first, then the first compound tag, then a literal tag if there is only one. -/
def ofMembers (members : List (String × Value)) : Observation :=
  match error? members with
  | some found => .error (causeOf found)
  | none =>
    match members.findSome? fun member => Compound.ofTag? member.1 with
    | some kind => .compound kind
    | none =>
      match literals members with
      | [(kind, value)] => .literal kind value
      | _ =>
        if members.isEmpty then .shortCircuited else .unrecognized (members.map (·.1))

end Observation

/-- An observation and how often it was made. -/
structure Tally where
  observation : Observation
  count : Nat

end RulesAssist.Coverage
