import Mathlib
import RulesAssist.Coverage.Report
import RulesAssist.Proofs.Position

/-! Spans of source ranges in machine words.

Words of 64 bits wrap around. A range of such words has a span exactly if none of the steps on the way to it
wraps around, and then the span has the exact numbers.
-/

set_option autoImplicit false

namespace RulesAssist.Coverage

/-- A source range as four words. The offsets have a sign. -/
structure WordRange where
  line : BitVec 64
  column : BitVec 64
  currentOffset : BitVec 64
  endOffset : BitVec 64

def Signed (value : Int) : Prop :=
  -2 ^ 63 ≤ value ∧ value < 2 ^ 63

theorem signed_toInt (word : BitVec 64) : Signed word.toInt :=
  ⟨BitVec.le_toInt word, BitVec.toInt_lt⟩

theorem bmod_eq_self_iff {value : Int} (near : -2 ^ 64 ≤ value ∧ value < 2 ^ 64) :
    value.bmod (2 ^ 64) = value ↔ Signed value := by
  rw [Int.bmod_def]
  unfold Signed
  omega

namespace SourceRange

/-- The width fits a word with a sign, and so does what it is adjusted by; the end fits a column. -/
structure Fits (range : SourceRange) : Prop where
  lower : -2 ^ 63 ≤ range.endOffset - range.currentOffset
  upper : range.endOffset - range.currentOffset ≤ 2 ^ 63 - 3
  column : max ((range.column : Int) - 1) 0 + max (range.endOffset - range.currentOffset + 2) 0 ≤
    2 ^ 64 - 1

theorem width?_eq_some_iff {value width : Int} :
    width? value = some width ↔ Signed value ∧ value = width := by
  have limit : (Json.signedLimit : Int) = 2 ^ 63 := rfl
  unfold width? Signed
  rw [limit, Option.ite_none_right_eq_some, Option.some.injEq]

theorem translate_eq_some_iff {start stop : Position} {columns : Nat} :
    start.translate columns = some stop ↔
      start.column + columns < 2 ^ 64 ∧ ⟨start.line, start.column + columns⟩ = stop := by
  have limit : columnLimit = 2 ^ 64 := rfl
  unfold Position.translate
  rw [limit, Option.ite_none_right_eq_some, Option.some.injEq]

/-- Where a range ends is computed from where it starts and how wide it is. -/
def exactSpan (range : SourceRange) : Span :=
  ⟨⟨range.line - 1, range.column - 1⟩, ⟨range.line - 1,
    range.column - 1 + (max (range.endOffset - range.currentOffset + 2) 0).toNat⟩⟩

theorem span?_eq_some_iff {range : SourceRange} {span : Span} :
    range.span? = some span ↔ range.Fits ∧ range.exactSpan = span := by
  have fits : range.Fits ↔ Signed (range.endOffset - range.currentOffset) ∧
      Signed (range.endOffset - range.currentOffset + 2) ∧
      range.column - 1 + (max (range.endOffset - range.currentOffset + 2) 0).toNat < 2 ^ 64 := by
    unfold Signed
    constructor
    · rintro ⟨lower, upper, column⟩
      omega
    · rintro ⟨first, second, third⟩
      constructor <;> omega
  simp only [span?, bind, Option.bind_eq_some_iff, width?_eq_some_iff, translate_eq_some_iff,
    columnAdjustment, pure, Option.some.injEq]
  rw [fits]
  constructor
  · rintro ⟨_, ⟨first, rfl⟩, _, ⟨second, rfl⟩, _, ⟨third, rfl⟩, rfl⟩
    exact ⟨⟨first, second, third⟩, rfl⟩
  · rintro ⟨⟨first, second, third⟩, rfl⟩
    exact ⟨_, ⟨first, rfl⟩, _, ⟨second, rfl⟩, _, ⟨third, rfl⟩, rfl⟩

theorem spanOrError_eq_ok_iff {range : SourceRange} {span : Span} :
    range.spanOrError = .ok span ↔ range.span? = some span := by
  unfold spanOrError
  cases range.span? <;> simp

end SourceRange

namespace WordRange

def range (words : WordRange) : SourceRange :=
  ⟨words.line.toNat, words.column.toNat, words.currentOffset.toInt, words.endOffset.toInt⟩

def fromZero (word : BitVec 64) : BitVec 64 :=
  if word = 0 then 0 else word - 1

def difference (words : WordRange) : BitVec 64 :=
  words.endOffset - words.currentOffset

def adjusted (words : WordRange) : BitVec 64 :=
  words.difference + 2

def width (words : WordRange) : BitVec 64 :=
  if words.adjusted.slt 0 then 0 else words.adjusted

def stopColumn (words : WordRange) : BitVec 64 :=
  fromZero words.column + words.width

def span (words : WordRange) : Span :=
  ⟨⟨(fromZero words.line).toNat, (fromZero words.column).toNat⟩,
    ⟨(fromZero words.line).toNat, words.stopColumn.toNat⟩⟩

/-- Each step of the computation has its exact value and so does not wrap around. -/
structure Exact (words : WordRange) : Prop where
  line : ((fromZero words.line).toNat : Int) = max ((words.line.toNat : Int) - 1) 0
  column : ((fromZero words.column).toNat : Int) = max ((words.column.toNat : Int) - 1) 0
  difference : words.difference.toInt = words.endOffset.toInt - words.currentOffset.toInt
  adjusted : words.adjusted.toInt = words.difference.toInt + 2
  width : (words.width.toNat : Int) = max words.adjusted.toInt 0
  stopColumn : words.stopColumn.toNat = (fromZero words.column).toNat + words.width.toNat

theorem toNat_fromZero (word : BitVec 64) : (fromZero word).toNat = word.toNat - 1 := by
  unfold fromZero
  split
  · rename_i zero
    rw [zero]
    rfl
  · rename_i positive
    have nonzero : word.toNat ≠ 0 := fun zero => positive (BitVec.eq_of_toNat_eq zero)
    have bound := word.isLt
    rw [BitVec.toNat_sub, show (1 : BitVec 64).toNat = 1 from rfl]
    omega

theorem toNat_width (words : WordRange) :
    (words.width.toNat : Int) = max words.adjusted.toInt 0 := by
  have signed := BitVec.toInt_eq_toNat_cond words.adjusted
  have bound := words.adjusted.isLt
  unfold width
  rw [BitVec.slt_eq_decide, show (0 : BitVec 64).toInt = 0 from rfl]
  split
  · rename_i negative
    rw [decide_eq_true_eq] at negative
    rw [show (0 : BitVec 64).toNat = 0 from rfl]
    omega
  · rename_i positive
    rw [decide_eq_true_eq] at positive
    omega

theorem difference_exact_iff (words : WordRange) :
    words.difference.toInt = words.endOffset.toInt - words.currentOffset.toInt ↔
      Signed (words.endOffset.toInt - words.currentOffset.toInt) := by
  have last := signed_toInt words.endOffset
  have first := signed_toInt words.currentOffset
  unfold difference
  rw [BitVec.toInt_sub, bmod_eq_self_iff]
  unfold Signed at last first
  omega

theorem adjusted_exact_iff (words : WordRange) :
    words.adjusted.toInt = words.difference.toInt + 2 ↔ Signed (words.difference.toInt + 2) := by
  have signed := signed_toInt words.difference
  have two : (2 : BitVec 64).toInt = 2 := by decide
  unfold adjusted
  rw [BitVec.toInt_add, two, bmod_eq_self_iff]
  unfold Signed at signed
  omega

theorem stopColumn_exact_iff (words : WordRange) :
    words.stopColumn.toNat = (fromZero words.column).toNat + words.width.toNat ↔
      (fromZero words.column).toNat + words.width.toNat < 2 ^ 64 := by
  have column := (fromZero words.column).isLt
  have width := words.width.isLt
  unfold stopColumn
  rw [BitVec.toNat_add]
  omega

/-- Only the two steps with a sign and the last one can wrap around. -/
theorem exact_iff_fits (words : WordRange) : words.Exact ↔ words.range.Fits := by
  have clamped := words.toNat_width
  have column := toNat_fromZero words.column
  constructor
  · intro exact'
    have first := words.difference_exact_iff.mp exact'.difference
    have second := words.adjusted_exact_iff.mp exact'.adjusted
    have third := words.stopColumn_exact_iff.mp exact'.stopColumn
    rw [exact'.difference] at second
    rw [exact'.adjusted, exact'.difference] at clamped
    unfold Signed at first second
    constructor <;> dsimp only [range] <;> omega
  · rintro ⟨lower, upper, last⟩
    dsimp only [range] at lower upper last
    have difference : words.difference.toInt =
        words.endOffset.toInt - words.currentOffset.toInt :=
      words.difference_exact_iff.mpr ⟨lower, by omega⟩
    have adjusted : words.adjusted.toInt = words.difference.toInt + 2 :=
      words.adjusted_exact_iff.mpr ⟨by omega, by omega⟩
    refine ⟨?_, ?_, difference, adjusted, clamped, words.stopColumn_exact_iff.mpr ?_⟩
    · rw [toNat_fromZero]
      omega
    · rw [toNat_fromZero]
      omega
    · rw [adjusted, difference] at clamped
      omega

theorem span_eq_exactSpan {words : WordRange} (exact' : words.Exact) :
    words.span = words.range.exactSpan := by
  obtain ⟨_, _, difference, adjusted, width, stopColumn⟩ := exact'
  rw [adjusted, difference] at width
  rw [toNat_fromZero] at stopColumn
  simp only [span, SourceRange.exactSpan, range, toNat_fromZero, stopColumn, Span.mk.injEq,
    Position.mk.injEq, true_and]
  omega

/-- A range of words has a span exactly if its width fits a word with a sign and its end fits a column. No
step to the span wraps around then, and one of them would if there were no span. -/
theorem spanOrError_exact (words : WordRange) :
    ((∃ span, words.range.spanOrError = .ok span) ↔ words.range.Fits) ∧
      (∀ span, words.range.spanOrError = .ok span →
        (span.start.line : Int) = max ((words.line.toNat : Int) - 1) 0 ∧
        (span.start.column : Int) = max ((words.column.toNat : Int) - 1) 0 ∧
        span.stop.line = span.start.line ∧
        (span.stop.column : Int) = span.start.column +
          max (words.endOffset.toInt - words.currentOffset.toInt + 2) 0 ∧
        span.start ≤ span.stop ∧ words.span = span) ∧
      (¬ words.range.Fits → words.range.spanOrError = .error (.outOfRange words.range)) ∧
      (words.Exact ↔ words.range.Fits) := by
  have spanned : ∀ span, words.range.spanOrError = .ok span ↔
      words.range.Fits ∧ words.range.exactSpan = span := fun span =>
    SourceRange.spanOrError_eq_ok_iff.trans SourceRange.span?_eq_some_iff
  refine ⟨?_, ?_, ?_, words.exact_iff_fits⟩
  · simp only [spanned, exists_and_left, exists_eq', and_true]
  · intro span had
    obtain ⟨fits, rfl⟩ := (spanned span).mp had
    refine ⟨?_, ?_, rfl, ?_, .inr ⟨rfl, Nat.le_add_right ..⟩,
      span_eq_exactSpan (words.exact_iff_fits.mpr fits)⟩
    · dsimp only [SourceRange.exactSpan, range]
      omega
    · dsimp only [SourceRange.exactSpan, range]
      omega
    · dsimp only [SourceRange.exactSpan, range]
      omega
  · intro large
    cases had : words.range.span? with
    | none => simp only [SourceRange.spanOrError, had]
    | some span => exact absurd (SourceRange.span?_eq_some_iff.mp had).1 large

def widest : WordRange where
  line := 1
  column := 0x8000000000000001
  currentOffset := 0
  endOffset := 0x7FFFFFFFFFFFFFFD

def tooFar : WordRange :=
  { widest with column := 0x8000000000000002 }

def tooWide : WordRange :=
  { widest with column := 1, endOffset := 0x7FFFFFFFFFFFFFFE }

theorem spanOrError_exact_widest :
    (∃ span, widest.range.spanOrError = .ok span ∧ (span.stop.column : Int) = 2 ^ 64 - 1) ∧
      tooFar.range.spanOrError = .error (.outOfRange tooFar.range) ∧
      tooWide.range.spanOrError = .error (.outOfRange tooWide.range) := by
  have fits : widest.range.Fits := by constructor <;> decide
  have far : ¬ tooFar.range.Fits := fun ⟨_, _, column⟩ => absurd column (by decide)
  have wide : ¬ tooWide.range.Fits := fun ⟨_, upper, _⟩ => absurd upper (by decide)
  obtain ⟨spanned, exact', _, _⟩ := spanOrError_exact widest
  obtain ⟨span, had⟩ := spanned.mpr fits
  obtain ⟨_, start, _, stop, _⟩ := exact' span had
  refine ⟨⟨span, had, ?_⟩, (spanOrError_exact tooFar).2.2.1 far, (spanOrError_exact tooWide).2.2.1 wide⟩
  rw [stop, start]
  decide

end WordRange

end RulesAssist.Coverage
