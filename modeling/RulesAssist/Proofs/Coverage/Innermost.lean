import RulesAssist.Coverage.Innermost
import RulesAssist.Proofs.Position

/-! What the choice of the innermost entry comes to.

Containment does not order all spans, and an entry that has been passed over is not looked at again. Still
no entry around the position lies strictly inside the chosen one: the candidates that were held before it
contain it, so that whatever lies inside it would have been taken in their place.
-/

set_option autoImplicit false

namespace RulesAssist.Coverage

/-- The entry is around the position, none around it lies strictly inside, and no later entry has its
span. -/
structure IsInnermost (entries : List Entry) (position : Position) (chosen : Entry) : Prop where
  contains : chosen.span.contains position = true
  least : ∀ entry ∈ entries, entry.span.contains position = true →
    chosen.span.covers entry.span = true → entry.span = chosen.span
  last : ∃ before after, entries = before ++ chosen :: after ∧
    ∀ later ∈ after, later.span ≠ chosen.span

theorem innermost_concat (entries : List Entry) (next : Entry) (position : Position) :
    innermost (entries ++ [next]) position =
      if next.span.contains position then narrow (innermost entries position) next
      else innermost entries position := by
  simp only [innermost, List.filter_append, List.foldl_append]
  by_cases inside : next.span.contains position = true <;> simp [inside]

namespace IsInnermost

variable {entries : List Entry} {position : Position} {chosen next : Entry}

theorem mem (innermost : IsInnermost entries position chosen) : chosen ∈ entries := by
  obtain ⟨before, after, split, _⟩ := innermost.last
  simp [split]

theorem span_eq (innermost : IsInnermost entries position chosen) {core : Entry}
    (member : core ∈ entries) (inside : core.span.contains position = true)
    (within : ∀ entry ∈ entries, entry.span.contains position = true →
      entry.span.covers core.span = true) : chosen.span = core.span :=
  (innermost.least core member inside (within chosen innermost.mem innermost.contains)).symm

theorem first (outside : ∀ entry ∈ entries, entry.span.contains position = false)
    (inside : next.span.contains position = true) :
    IsInnermost (entries ++ [next]) position next where
  contains := inside
  least := by
    simp only [List.forall_mem_append, List.forall_mem_singleton, implies_true, and_true]
    intro entry earlier around
    simp [outside entry earlier] at around
  last := ⟨entries, [], rfl, nofun⟩

theorem passOver (innermost : IsInnermost entries position chosen)
    (missed : next.span.contains position = true → chosen.span.covers next.span = false) :
    IsInnermost (entries ++ [next]) position chosen where
  contains := innermost.contains
  least := by
    simp only [List.forall_mem_append, List.forall_mem_singleton]
    constructor
    · exact innermost.least
    · intro around covered
      simp [missed around] at covered
  last := by
    obtain ⟨before, after, rfl, apart⟩ := innermost.last
    refine ⟨before, after ++ [next], by simp, ?_⟩
    simp only [List.forall_mem_append, List.forall_mem_singleton]
    constructor
    · exact apart
    · -- An entry with the chosen span would have been taken.
      intro same
      rw [same] at missed
      simp [innermost.contains, Span.covers_self innermost.contains] at missed

theorem replace (innermost : IsInnermost entries position chosen)
    (inside : next.span.contains position = true)
    (covered : chosen.span.covers next.span = true) :
    IsInnermost (entries ++ [next]) position next where
  contains := inside
  least := by
    simp only [List.forall_mem_append, List.forall_mem_singleton, implies_true, and_true]
    intro entry earlier around within
    have equal := innermost.least entry earlier around (Span.covers_trans covered within)
    rw [equal] at within ⊢
    exact Span.covers_antisymm covered within
  last := ⟨entries, [], rfl, nofun⟩

end IsInnermost

/-- One entry after another is taken if it lies inside the one that is held. -/
theorem innermost_cases (entries : List Entry) (position : Position) :
    (innermost entries position = none ∧
      ∀ entry ∈ entries, entry.span.contains position = false) ∨
    ∃ chosen, innermost entries position = some chosen ∧
      IsInnermost entries position chosen := by
  induction entries using List.reverseRecOn with
  | nil => exact .inl ⟨rfl, nofun⟩
  | append_singleton entries next ih =>
    rw [innermost_concat]
    cases inside : next.span.contains position with
    | false =>
      simp only [Bool.false_eq_true, if_false]
      rcases ih with ⟨none, outside⟩ | ⟨chosen, found, innermost⟩
      · left
        simp only [List.forall_mem_append, List.forall_mem_singleton]
        exact ⟨none, outside, inside⟩
      · exact .inr ⟨chosen, found, innermost.passOver (by simp [inside])⟩
    | true =>
      right
      simp only [if_true]
      rcases ih with ⟨none, outside⟩ | ⟨chosen, found, innermost⟩
      · exact ⟨next, by simp [none, narrow], .first outside inside⟩
      · cases covered : chosen.span.covers next.span with
        | true => exact ⟨next, by simp [found, narrow, covered], innermost.replace inside covered⟩
        | false => exact ⟨chosen, by simp [found, narrow, covered], innermost.passOver fun _ => covered⟩

theorem innermost_eq_none_iff {entries : List Entry} {position : Position} :
    innermost entries position = none ↔
      ∀ entry ∈ entries, entry.span.contains position = false := by
  constructor
  · intro missing
    rcases innermost_cases entries position with ⟨_, outside⟩ | ⟨chosen, found, _⟩
    · exact outside
    · simp [missing] at found
  · intro outside
    rcases innermost_cases entries position with ⟨missing, _⟩ | ⟨chosen, _, innermost⟩
    · exact missing
    · have around := innermost.contains
      simp [outside chosen innermost.mem] at around

theorem isInnermost_of_eq_some {entries : List Entry} {position : Position} {chosen : Entry}
    (found : innermost entries position = some chosen) : IsInnermost entries position chosen := by
  rcases innermost_cases entries position with ⟨missing, _⟩ | ⟨other, same, innermost⟩
  · simp [missing] at found
  · rw [found, Option.some.injEq] at same
    rwa [same]

theorem exists_innermost {entries : List Entry} {position : Position} {entry : Entry}
    (member : entry ∈ entries) (inside : entry.span.contains position = true) :
    ∃ chosen, innermost entries position = some chosen := by
  rcases innermost_cases entries position with ⟨_, outside⟩ | ⟨chosen, found, _⟩
  · simp [outside entry member] at inside
  · exact ⟨chosen, found⟩

/-- An entry is found if and only if one is around the position. No entry around the position lies inside
the one that is found, other than those with its span, of which it is the last. If one entry lies inside
all that are around the position, its span is found in whatever order the entries stand. -/
theorem innermost_minimal_last (entries : List Entry) (position : Position) :
    (innermost entries position = none ↔
      ∀ entry ∈ entries, entry.span.contains position = false) ∧
    (∀ chosen, innermost entries position = some chosen →
      chosen.span.contains position = true ∧
      (∀ entry ∈ entries, entry.span.contains position = true →
        chosen.span.covers entry.span = true → entry.span = chosen.span) ∧
      ∃ before after, entries = before ++ chosen :: after ∧
        ∀ later ∈ after, later.span ≠ chosen.span) ∧
    ∀ core ∈ entries, core.span.contains position = true →
      (∀ entry ∈ entries, entry.span.contains position = true →
        entry.span.covers core.span = true) →
      ∀ arranged, arranged.Perm entries →
        ∃ chosen, innermost arranged position = some chosen ∧ chosen.span = core.span := by
  refine ⟨innermost_eq_none_iff, ?_, ?_⟩
  · intro chosen found
    have innermost := isInnermost_of_eq_some found
    exact ⟨innermost.contains, innermost.least, innermost.last⟩
  · intro core member inside within arranged order
    have here : core ∈ arranged := order.mem_iff.mpr member
    obtain ⟨chosen, found⟩ := exists_innermost here inside
    refine ⟨chosen, found, (isInnermost_of_eq_some found).span_eq here inside ?_⟩
    intro entry among
    exact within entry (order.mem_iff.mp among)

def stretch (first last count : Nat) : Entry :=
  ⟨⟨⟨0, first⟩, ⟨0, last⟩⟩, [⟨.shortCircuited, count⟩]⟩

/-- Two entries that cross each other, one inside both of them, and one that ends before it starts. -/
def crossing : List Entry := [stretch 0 8 1, stretch 5 7 2, stretch 9 3 3, stretch 4 12 4]

/-- Where the crossing entries come first, the one inside them is still found. -/
theorem innermost_minimal_last_crossing : crossing.reverse.Perm crossing ∧
    ∃ chosen, innermost crossing.reverse ⟨0, 6⟩ = some chosen ∧
      chosen.span = ⟨⟨0, 5⟩, ⟨0, 7⟩⟩ := by
  have reversed : crossing.reverse.Perm crossing := List.reverse_perm crossing
  refine ⟨reversed, (innermost_minimal_last crossing ⟨0, 6⟩).2.2 (stretch 5 7 2) ?_ rfl ?_ _ reversed⟩
  · simp [crossing]
  · simp only [crossing, List.forall_mem_cons, List.not_mem_nil, false_imp_iff, implies_true,
      and_true]
    decide

end RulesAssist.Coverage
