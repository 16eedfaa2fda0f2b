import RulesAssist.Json.Token

/-! The shape of a JSON text, with every number and string left as it was written.

A tree keeps repeated keys, deep nesting, huge numbers and unpaired units: which of these are
allowed depends on what the value is read as, and a value that nobody reads may have all of them.
-/

set_option autoImplicit false

namespace RulesAssist.Json

inductive Tree where
  | null
  | bool (value : Bool)
  | number (literal : Literal)
  | text (pieces : List Piece)
  | array (items : List Tree)
  | object (members : List (List Piece × Tree))

/-- An open container: its finished contents, last first, and for an object the key whose value is due. -/
inductive Frame where
  | array (items : List Tree)
  | object (members : List (List Piece × Tree)) (key : List Piece)

/-- What may come next, and the containers that are open around it. -/
inductive Expectation where
  | value (frames : List Frame)
  | itemOrEnd (frames : List Frame)
  | keyOrEnd (frames : List Frame)
  | key (members : List (List Piece × Tree)) (frames : List Frame)
  | colon (members : List (List Piece × Tree)) (key : List Piece) (frames : List Frame)
  | after (tree : Tree) (frames : List Frame)

namespace Expectation

def beginValue (frames : List Frame) : Token → Option Expectation
  | .null => some (.after .null frames)
  | .bool truth => some (.after (.bool truth) frames)
  | .number literal => some (.after (.number literal) frames)
  | .text pieces => some (.after (.text pieces) frames)
  | .openArray => some (.itemOrEnd frames)
  | .openObject => some (.keyOrEnd frames)
  | _ => none

def step : Expectation → Token → Option Expectation
  | .value frames, token => beginValue frames token
  | .itemOrEnd frames, .closeArray => some (.after (.array []) frames)
  | .itemOrEnd frames, token => beginValue (.array [] :: frames) token
  | .keyOrEnd frames, .closeObject => some (.after (.object []) frames)
  | .keyOrEnd frames, .text pieces => some (.colon [] pieces frames)
  | .key members frames, .text pieces => some (.colon members pieces frames)
  | .colon members name frames, .colon => some (.value (.object members name :: frames))
  | .after item (.array items :: frames), .comma => some (.value (.array (item :: items) :: frames))
  | .after item (.array items :: frames), .closeArray =>
    some (.after (.array (item :: items).reverse) frames)
  | .after member (.object members name :: frames), .comma =>
    some (.key ((name, member) :: members) frames)
  | .after member (.object members name :: frames), .closeObject =>
    some (.after (.object ((name, member) :: members).reverse) frames)
  | _, _ => none

def finished? : Expectation → Option Tree
  | .after tree [] => some tree
  | _ => none

end Expectation

def Tree.parse (text : String) : Option Tree := do
  let tokens ← tokenize text
  let expectation ← tokens.foldlM Expectation.step (.value [])
  expectation.finished?

/-- Put units together to characters: a high unit needs a low one right after it, and no unit stands alone. -/
def textOfPieces : List Piece → Option (List Char)
  | [] => some []
  | .char value :: rest => (textOfPieces rest).map (value :: ·)
  -- Only two units side by side can be a pair; a character between them leaves both alone.
  | .unit high :: .unit low :: rest =>
    if 0xD800 ≤ high && high < 0xDC00 then
      if 0xDC00 ≤ low && low < 0xE000 then
        (textOfPieces rest).map
          (Char.ofNat (0x10000 + 0x400 * (high - 0xD800) + (low - 0xDC00)) :: ·)
      else none
    else if 0xDC00 ≤ high && high < 0xE000 then none
    else (textOfPieces (.unit low :: rest)).map (Char.ofNat high :: ·)
  | .unit code :: rest =>
    if 0xD800 ≤ code && code < 0xE000 then none
    else (textOfPieces rest).map (Char.ofNat code :: ·)

def stringOfPieces (pieces : List Piece) : Option String :=
  (textOfPieces pieces).map String.ofList

end RulesAssist.Json
