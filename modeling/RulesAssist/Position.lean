/-! Places in a document and the ranges between them.

Lines and columns count from zero, and a column counts characters. A span holds both
of its ends, and nothing forbids a span whose end comes before its start.
-/

set_option autoImplicit false

namespace RulesAssist

/-- Columns are written with at most 64 bits. -/
def columnLimit : Nat := 1 <<< 64

structure Position where
  line : Nat
  column : Nat
  deriving DecidableEq, Repr

namespace Position

/-- Reading order: by line, then by column. -/
instance : LE Position where
  le left right := left.line < right.line ∨ left.line = right.line ∧ left.column ≤ right.column

instance (left right : Position) : Decidable (left ≤ right) :=
  inferInstanceAs (Decidable (_ ∨ _))

theorem le_iff (left right : Position) :
    left ≤ right ↔ left.line < right.line ∨ left.line = right.line ∧ left.column ≤ right.column :=
  Iff.rfl

def translate (position : Position) (columns : Nat) : Option Position :=
  if position.column + columns < columnLimit then
    some { position with column := position.column + columns }
  else
    none

def sort (positions : List Position) : List Position :=
  positions.mergeSort fun left right => decide (left ≤ right)

end Position

structure Span where
  start : Position
  stop : Position
  deriving DecidableEq, Repr

namespace Span

/-- Lines outside the span are not in it; its first and last lines are cut at its columns. -/
def contains (span : Span) (position : Position) : Bool :=
  !(position.line < span.start.line || span.stop.line < position.line) &&
    !(position.line == span.start.line && position.column < span.start.column) &&
    !(position.line == span.stop.line && span.stop.column < position.column)

def covers (span other : Span) : Bool :=
  span.contains other.start && span.contains other.stop

end Span

end RulesAssist
