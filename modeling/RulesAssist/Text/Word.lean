import RulesAssist.Text.Blank
import RulesAssist.Text.WordCharacter

/-! Words of a line of text, as an editor asks for them around a cursor.

Columns are character indices into one line. A range holds its start and not its stop.
-/

set_option autoImplicit false

namespace RulesAssist.Text

/-- A half-open range of columns. -/
structure Columns where
  start : Nat
  stop : Nat
  deriving DecidableEq, Repr

/-- Letters and digits of ASCII, the underscore and the dot: the characters of `request.auth.uid`. -/
def isChainCharacter (char : Char) : Bool :=
  char.isAlphanum || char == '_' || char == '.'

def isOpener (char : Char) : Bool :=
  isBlank char || char == '(' || char == '['

/-- The last dotted word of the text, if an opener stands before it and only blanks after it. -/
def wordBefore (text : String) : Option String :=
  let ending := text.toList.reverse.dropWhile isBlank
  let word := ending.takeWhile isChainCharacter
  match ending.dropWhile isChainCharacter with
  | [] => none
  | opener :: _ =>
    if isOpener opener && !word.isEmpty then some (String.ofList word.reverse) else none

def wordIn (line : String) (columns : Columns) : Option String :=
  let word := (line.toList.drop columns.start).take (columns.stop - columns.start)
  if columns.start < columns.stop && word.length == columns.stop - columns.start then
    some (String.ofList word)
  else
    none

/-- The column itself if a word character stands there, else the column before it if one stands there. -/
def anchorColumn (isWord : Char → Bool) (chars : List Char) (column : Nat) : Option Nat :=
  let onWord (index : Nat) : Bool := (chars[index]?).any isWord
  if onWord column then some column
  else if 0 < column && onWord (column - 1) then some (column - 1)
  else none

def runAround (isWord : Char → Bool) (line : List Char) (column : Nat) : Columns :=
  { start := column - ((line.take column).reverse.takeWhile isWord).length
    stop := column + ((line.drop column).takeWhile isWord).length }

/-- The run of word characters that the column touches; the column just past a word touches it. -/
def touching (isWord : Char → Bool) (line : String) (column : Nat) : Option Columns :=
  (anchorColumn isWord line.toList column).map (runAround isWord line.toList)

def wordAround (line : String) (column : Nat) : Option Columns :=
  touching isWordChar line column

end RulesAssist.Text
