import RulesAssist.Json.Number
import RulesAssist.Json.Tree
import RulesAssist.Keyed

/-! JSON values: what a tree means when all of it is kept, and how a value is written back. -/

set_option autoImplicit false

namespace RulesAssist.Json

inductive Value where
  | null
  | bool (value : Bool)
  | number (value : Number)
  | string (value : String)
  | array (items : List Value)
  | object (members : List (String × Value))
  deriving Inhabited

/-- How many containers may be open at once in what is kept. -/
def depthLimit : Nat := 127

def namedMembers (members : List (List Piece × Tree)) : Option (List (String × Tree)) :=
  members.mapM fun member => (stringOfPieces member.1).map (·, member.2)

/-- The value of a tree, if no more containers are nested in it than may still be opened.
A repeated key keeps its first place and its last value. -/
def Value.ofTree? : Nat → Tree → Option Value
  | _, .null => some .null
  | _, .bool value => some (.bool value)
  | _, .number literal => literal.number?.map .number
  | _, .text pieces => (stringOfPieces pieces).map .string
  | 0, .array _ => none
  | depth + 1, .array items => (items.mapM (Value.ofTree? depth)).map .array
  | 0, .object _ => none
  | depth + 1, .object members => do
    let named ← namedMembers members
    let read ← named.mapM fun member => (Value.ofTree? depth member.2).map (member.1, ·)
    return .object (Keyed.merge [] read)

namespace Value

def hexDigit (value : Nat) : Char :=
  if value < 10 then Char.ofNat ('0'.toNat + value) else Char.ofNat ('a'.toNat + (value - 10))

/-- A character inside quotes. Only quotes, backslashes and control characters are escaped. -/
def escapeChar (char : Char) : List Char :=
  if char == '"' then ['\\', '"']
  else if char == '\\' then ['\\', '\\']
  else if char == '\x08' then ['\\', 'b']
  else if char == '\x0c' then ['\\', 'f']
  else if char == '\n' then ['\\', 'n']
  else if char == '\r' then ['\\', 'r']
  else if char == '\t' then ['\\', 't']
  else if char < ' ' then
    ['\\', 'u', '0', '0', hexDigit (char.toNat / 16), hexDigit (char.toNat % 16)]
  else [char]

def quote (text : String) : String :=
  String.ofList ('"' :: text.toList.flatMap escapeChar ++ ['"'])

mutual

def render : Value → String
  | .null => "null"
  | .bool value => if value then "true" else "false"
  | .number value => value.text
  | .string value => quote value
  | .array items => "[" ++ ",".intercalate (renderItems items) ++ "]"
  | .object members => "\x7b" ++ ",".intercalate (renderMembers members) ++ "\x7d"

def renderItems : List Value → List String
  | [] => []
  | item :: rest => render item :: renderItems rest

def renderMembers : List (String × Value) → List String
  | [] => []
  | (key, value) :: rest => (quote key ++ ":" ++ render value) :: renderMembers rest

end

def member? (value : Value) (key : String) : Option Value :=
  match value with
  | .object members => members.lookup key
  | _ => none

end Value

end RulesAssist.Json
