import Mathlib
import RulesAssist.Position

/-! What a span contains, in the order of positions. -/

set_option autoImplicit false

namespace RulesAssist

theorem Position.le_trans {first second third : Position} (before : first ≤ second)
    (after : second ≤ third) : first ≤ third := by
  rw [Position.le_iff] at before after ⊢
  omega

theorem Position.le_refl (position : Position) : position ≤ position :=
  .inr ⟨rfl, Nat.le_refl _⟩

theorem Position.le_antisymm {first second : Position} (before : first ≤ second)
    (after : second ≤ first) : first = second := by
  obtain ⟨line, column⟩ := first
  obtain ⟨otherLine, otherColumn⟩ := second
  simp only [Position.le_iff, Position.mk.injEq] at before after ⊢
  omega

def Position.key (position : Position) : ℕ ×ₗ ℕ :=
  toLex (position.line, position.column)

theorem Position.key_le_key {left right : Position} : left.key ≤ right.key ↔ left ≤ right :=
  Prod.Lex.toLex_le_toLex

namespace Span

theorem contains_iff {span : Span} {position : Position} :
    span.contains position = true ↔ span.start ≤ position ∧ position ≤ span.stop := by
  simp only [contains, Bool.and_eq_true, Bool.not_eq_true', Bool.or_eq_false_iff,
    Bool.and_eq_false_iff, decide_eq_false_iff_not, beq_eq_false_iff_ne, Position.le_iff]
  omega

theorem contains_of_covers {outer inner : Span} {position : Position}
    (covered : outer.covers inner = true) (inside : inner.contains position = true) :
    outer.contains position = true := by
  obtain ⟨start, stop⟩ := Bool.and_eq_true_iff.mp covered
  obtain ⟨after, before⟩ := contains_iff.mp inside
  rw [contains_iff] at start stop ⊢
  exact ⟨Position.le_trans start.1 after, Position.le_trans before stop.2⟩

theorem covers_iff {outer inner : Span} :
    outer.covers inner = true ↔
      outer.contains inner.start = true ∧ outer.contains inner.stop = true :=
  Bool.and_eq_true_iff

theorem covers_self {span : Span} {position : Position} (around : span.contains position = true) :
    span.covers span = true := by
  obtain ⟨after, before⟩ := contains_iff.mp around
  have ordered := Position.le_trans after before
  rw [covers_iff, contains_iff, contains_iff]
  exact ⟨⟨Position.le_refl _, ordered⟩, ordered, Position.le_refl _⟩

theorem covers_trans {outer middle inner : Span} (first : outer.covers middle = true)
    (second : middle.covers inner = true) : outer.covers inner = true := by
  rw [covers_iff] at second ⊢
  exact ⟨contains_of_covers first second.1, contains_of_covers first second.2⟩

theorem covers_antisymm {one other : Span} (first : one.covers other = true)
    (second : other.covers one = true) : one = other := by
  obtain ⟨start, stop⟩ := one
  obtain ⟨otherStart, otherStop⟩ := other
  simp only [covers_iff, contains_iff] at first second
  have starts := Position.le_antisymm first.1.1 second.1.1
  have stops := Position.le_antisymm second.2.2 first.2.2
  rw [starts, stops]

theorem covers_self_iff {span : Span} : span.covers span = true ↔ span.start ≤ span.stop := by
  simp [covers_iff, contains_iff, Position.le_refl]

/-- A span that does not end before it starts contains both of its ends, so its positions tell all of it. -/
theorem covers_iff_forall_contains {outer inner : Span} (forward : inner.start ≤ inner.stop) :
    outer.covers inner = true ↔
      ∀ position, inner.contains position = true → outer.contains position = true := by
  constructor
  · intro covered position inside
    exact contains_of_covers covered inside
  · intro all
    obtain ⟨start, stop⟩ := covers_iff.mp (covers_self_iff.mpr forward)
    exact covers_iff.mpr ⟨all inner.start start, all inner.stop stop⟩

/-- Containment is the lexicographic order of lines and columns, and it needs no order between the ends of a
span: covering is transitive and antisymmetric for all spans, and what a covered span contains is contained in
the covering one. Only a span that does not end before it starts covers itself, and it is covered by whatever
contains its positions. -/
theorem contains_lexicographic (outer middle inner : Span) (position : Position) :
    (outer.contains position = true ↔ position.key ∈ Set.Icc outer.start.key outer.stop.key) ∧
      (outer.covers middle = true → middle.covers inner = true → outer.covers inner = true) ∧
      (outer.covers inner = true → inner.covers outer = true → outer = inner) ∧
      (inner.covers inner = true ↔ inner.start.key ≤ inner.stop.key) ∧
      (outer.covers inner = true → inner.contains position = true →
        outer.contains position = true) ∧
      (inner.start.key ≤ inner.stop.key → (outer.covers inner = true ↔
        ∀ position, inner.contains position = true → outer.contains position = true)) := by
  simp only [Set.mem_Icc, Position.key_le_key]
  exact ⟨contains_iff, covers_trans, covers_antisymm, covers_self_iff, contains_of_covers,
    covers_iff_forall_contains⟩

/-- Three spans inside each other, of which the last one ends before it starts. -/
theorem contains_lexicographic_inverted :
    let outer : Span := ⟨⟨0, 4⟩, ⟨3, 2⟩⟩
    let middle : Span := ⟨⟨1, 0⟩, ⟨2, 9⟩⟩
    let inverted : Span := ⟨⟨2, 5⟩, ⟨1, 7⟩⟩
    outer.covers inverted = true ∧ inverted.covers inverted = false ∧ middle.covers outer = false ∧
      middle.contains ⟨1, 40⟩ = true ∧ outer.contains ⟨1, 40⟩ = true ∧
      ∀ position, middle.contains position = true → outer.contains position = true := by
  intro outer middle inverted
  obtain ⟨-, nested, -, itself, -⟩ := contains_lexicographic outer middle inverted ⟨1, 40⟩
  obtain ⟨-, -, same, -, inside, all⟩ := contains_lexicographic outer middle middle ⟨1, 40⟩
  obtain ⟨within, -⟩ := contains_lexicographic middle middle middle ⟨1, 40⟩
  have covered : outer.covers middle = true := by decide
  have there : middle.contains ⟨1, 40⟩ = true := within.mpr (by decide)
  refine ⟨nested covered (by decide), ?_, ?_, there, inside covered there, (all (by decide)).mp covered⟩
  · rw [Bool.eq_false_iff, ne_eq, itself]
    decide
  · rw [Bool.eq_false_iff]
    intro around
    exact absurd (same covered around) (by decide)

end Span

end RulesAssist
