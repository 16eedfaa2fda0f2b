/-! The tokens of a JSON text.

The scanner reads one character at a time and keeps what it is in the middle of. String contents
stay as they were written, since what an escape means depends on whether the string is kept.
-/

set_option autoImplicit false

namespace RulesAssist.Json

/-- One element of a string: a character, or a 16-bit unit written as four hexadecimal digits. -/
inductive Piece where
  | char (value : Char)
  | unit (code : Nat)
  deriving DecidableEq, Repr

/-- A number as written: its digits before and after the point, and its exponent. -/
structure Literal where
  negative : Bool
  whole : List Nat
  fraction : Option (List Nat)
  exponent : Option Int
  deriving DecidableEq, Repr

inductive Token where
  | openArray
  | closeArray
  | openObject
  | closeObject
  | colon
  | comma
  | null
  | bool (value : Bool)
  | number (literal : Literal)
  | text (pieces : List Piece)
  deriving DecidableEq, Repr

/-- Space, tab, line feed and carriage return separate tokens; no other character does. -/
def isGap (char : Char) : Bool :=
  char == ' ' || char == '\t' || char == '\n' || char == '\r'

def digitValue (char : Char) : Nat :=
  char.toNat - '0'.toNat

def hexValue? (char : Char) : Option Nat :=
  if char.isDigit then some (digitValue char)
  else if 'a' ≤ char ∧ char ≤ 'f' then some (char.toNat - 'a'.toNat + 10)
  else if 'A' ≤ char ∧ char ≤ 'F' then some (char.toNat - 'A'.toNat + 10)
  else none

def escaped? : Char → Option Char
  | '"' => some '"'
  | '\\' => some '\\'
  | '/' => some '/'
  | 'b' => some '\x08'
  | 'f' => some '\x0c'
  | 'n' => some '\n'
  | 'r' => some '\r'
  | 't' => some '\t'
  | _ => none

def Token.ofWord? (word : List Char) : Option Token :=
  if word = "null".toList then some .null
  else if word = "true".toList then some (.bool true)
  else if word = "false".toList then some (.bool false)
  else none

namespace Literal

def ofDigits (digits : List Nat) : Nat :=
  digits.foldl (fun value digit => 10 * value + digit) 0

def digits? (text : List Char) : Option (List Nat × List Char) :=
  match text.takeWhile Char.isDigit with
  | [] => none
  | digits => some (digits.map digitValue, text.dropWhile Char.isDigit)

/-- A zero is the only digit of a number that starts with it. -/
def whole? (text : List Char) : Option (List Nat × List Char) := do
  let (digits, rest) ← digits? text
  if digits.length > 1 && digits.head? == some 0 then none else some (digits, rest)

def fraction? : List Char → Option (Option (List Nat) × List Char)
  | '.' :: rest => do
    let (digits, rest) ← digits? rest
    return (some digits, rest)
  | rest => some (none, rest)

def exponent? : List Char → Option (Option Int × List Char)
  | mark :: rest =>
    if mark == 'e' || mark == 'E' then
      match rest with
      | '-' :: rest => do
        let (digits, rest) ← digits? rest
        return (some (-(ofDigits digits : Int)), rest)
      | rest => do
        let (digits, rest) ← digits? (if rest.head? == some '+' then rest.tail else rest)
        return (some (ofDigits digits : Int), rest)
    else
      some (none, mark :: rest)
  | [] => some (none, [])

def ofChars? (text : List Char) : Option Literal := do
  let negative := text.head? == some '-'
  let (whole, rest) ← whole? (if negative then text.tail else text)
  let (fraction, rest) ← fraction? rest
  let (exponent, rest) ← exponent? rest
  if rest.isEmpty then some { negative, whole, fraction, exponent } else none

end Literal

/-- What the scanner is in the middle of; texts and pieces are kept last first. -/
inductive Unfinished where
  | gap
  | word (letters : List Char)
  | number (chars : List Char)
  | text (pieces : List Piece)
  | escape (pieces : List Piece)
  | hex (pieces : List Piece) (read : Nat) (code : Nat)
  deriving DecidableEq, Repr

structure Scanner where
  tokens : List Token
  current : Unfinished
  deriving DecidableEq, Repr

namespace Scanner

def initial : Scanner := { tokens := [], current := .gap }

def isNumberChar (char : Char) : Bool :=
  char.isDigit || char == '-' || char == '+' || char == '.' || char == 'e' || char == 'E'

def punctuation? : Char → Option Token
  | '[' => some .openArray
  | ']' => some .closeArray
  | '\x7b' => some .openObject
  | '\x7d' => some .closeObject
  | ':' => some .colon
  | ',' => some .comma
  | _ => none

def start (tokens : List Token) (char : Char) : Option Scanner :=
  if isGap char then some { tokens, current := .gap }
  else if char == '"' then some { tokens, current := .text [] }
  else if char.isDigit || char == '-' then some { tokens, current := .number [char] }
  else if char.isLower then some { tokens, current := .word [char] }
  else (punctuation? char).map fun token => { tokens := token :: tokens, current := .gap }

def close : Scanner → Option (List Token)
  | { tokens, current := .gap } => some tokens
  | { tokens, current := .word letters } => (Token.ofWord? letters.reverse).map (· :: tokens)
  | { tokens, current := .number chars } =>
    (Literal.ofChars? chars.reverse).map fun literal => .number literal :: tokens
  | _ => none

/-- Read one character. Inside a string a character below the space is refused. -/
def step (scanner : Scanner) (char : Char) : Option Scanner :=
  match scanner.current with
  | .gap => start scanner.tokens char
  | .word letters =>
    if char.isLower then some { scanner with current := .word (char :: letters) }
    else scanner.close.bind (start · char)
  | .number chars =>
    if isNumberChar char then some { scanner with current := .number (char :: chars) }
    else scanner.close.bind (start · char)
  | .text pieces =>
    if char == '"' then some { tokens := .text pieces.reverse :: scanner.tokens, current := .gap }
    else if char == '\\' then some { scanner with current := .escape pieces }
    else if char < ' ' then none
    else some { scanner with current := .text (.char char :: pieces) }
  | .escape pieces =>
    if char == 'u' then some { scanner with current := .hex pieces 0 0 }
    else (escaped? char).map fun value => { scanner with current := .text (.char value :: pieces) }
  | .hex pieces read code =>
    (hexValue? char).map fun digit =>
      let code := 16 * code + digit
      if read = 3 then { scanner with current := .text (.unit code :: pieces) }
      else { scanner with current := .hex pieces (read + 1) code }

end Scanner

def tokenize (text : String) : Option (List Token) := do
  let scanner ← text.toList.foldlM Scanner.step Scanner.initial
  let tokens ← scanner.close
  return tokens.reverse

end RulesAssist.Json
