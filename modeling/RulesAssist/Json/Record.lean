import RulesAssist.Json.Value

/-! Reading records, lists and maps from a tree.

A record is an object with some known keys, or an array of its fields in order. Each reader that
opens a container is given how many may still be opened, and passes one fewer on.
-/

set_option autoImplicit false

namespace RulesAssist.Json

/-- A way to read one value, given how many containers may still be opened. -/
abbrev Reader (Result : Type) := Nat → Tree → Option Result

namespace Reader

variable {Result : Type}

def parse (reader : Reader Result) (text : String) : Option Result :=
  (Tree.parse text).bind (reader depthLimit)

def string : Reader String
  | _, .text pieces => stringOfPieces pieces
  | _, _ => none

def unsigned : Reader Nat
  | _, .number literal => literal.unsigned?
  | _, _ => none

def signed : Reader Int
  | _, .number literal => literal.signed?
  | _, _ => none

def optional (reader : Reader Result) : Reader (Option Result)
  | _, .null => some none
  | depth, tree => (reader depth tree).map some

def list (reader : Reader Result) : Reader (List Result)
  | depth + 1, .array items => items.mapM (reader depth)
  | _, _ => none

/-- A repeated key keeps its first place and its last value. -/
def map (reader : Reader Result) : Reader (List (String × Result))
  | depth + 1, .object members => do
    let named ← namedMembers members
    let read ← named.mapM fun member => (reader depth member.2).map (member.1, ·)
    return Keyed.merge [] read
  | _, _ => none

end Reader

abbrev Slots := List (String × Tree)

namespace Slots

/-- The known members of an object, none given twice, or the items of an array that is not too long.
Members under other keys are passed over. -/
def ofTree? (names : List String) : Tree → Option Slots
  | .array items => if items.length ≤ names.length then some (names.zip items) else none
  | .object members => do
    let named ← namedMembers members
    let known := named.filter fun member => names.contains member.1
    if (known.map (·.1)).Nodup then some known else none
  | _ => none

variable {Result : Type}

def required (slots : Slots) (name : String) (reader : Tree → Option Result) : Option Result :=
  (slots.lookup name).bind reader

def withDefault (slots : Slots) (name : String) (default : Result) (reader : Tree → Option Result) :
    Option Result :=
  match slots.lookup name with
  | none => some default
  | some tree => reader tree

end Slots

/-- Open a record: one container fewer may be opened by its fields. -/
def Reader.record {Result : Type} (names : List String) (fields : Nat → Slots → Option Result) :
    Reader Result
  | depth + 1, tree => (Slots.ofTree? names tree).bind (fields depth)
  | 0, _ => none

end RulesAssist.Json
