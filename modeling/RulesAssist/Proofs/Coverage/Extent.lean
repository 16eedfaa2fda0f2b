import RulesAssist.Proofs.Coverage.Descent
import RulesAssist.Proofs.Coverage.Innermost

/-! How wide the innermost entry is.

Every entry of a report lies on one line, so that an entry inside another one is not wider than it. Two
entries that overlap at their ends are not compared by their widths: the earlier one is held, even if it
is the wider one. The narrowest entry is found if it lies inside the one that is held before it.
-/

set_option autoImplicit false

namespace RulesAssist.Coverage

namespace Entry

def IsLevel (entry : Entry) : Prop :=
  entry.span.stop.line = entry.span.start.line

def width (entry : Entry) : Nat :=
  entry.span.stop.column - entry.span.start.column

def nests (entry other : Entry) : Bool :=
  entry.span.covers other.span || other.span.covers entry.span

variable {outer inner : Entry} {position : Position}

theorem width_le_of_covers (level : outer.IsLevel)
    (covered : outer.span.covers inner.span = true) : inner.width ≤ outer.width := by
  simp only [Span.covers_iff, Span.contains_iff, Position.le_iff] at covered
  simp only [IsLevel, width] at level ⊢
  omega

theorem span_eq_of_covers (level : outer.IsLevel) (inside : inner.span.contains position = true)
    (covered : outer.span.covers inner.span = true) (wide : outer.width ≤ inner.width) :
    inner.span = outer.span := by
  have ordered : inner.span.start ≤ inner.span.stop := by
    obtain ⟨after, before⟩ := Span.contains_iff.mp inside
    exact Position.le_trans after before
  refine Span.covers_antisymm ?_ covered
  simp only [Span.covers_iff, Span.contains_iff, Position.le_iff] at covered ordered ⊢
  simp only [IsLevel, width] at level wide
  omega

end Entry

theorem SourceRange.level_of_span? {range : SourceRange} {span : Span}
    (spanned : range.span? = some span) : span.stop.line = span.start.line := by
  simp only [span?, bind, Option.bind_eq_some_iff] at spanned
  obtain ⟨difference, _, width, _, stop, moved, same⟩ := spanned
  simp only [Position.translate] at moved
  split at moved
  · cases moved
    cases same
    rfl
  · cases moved

mutual

theorem Region.level_of_entries : ∀ (region : Region) (entries : List Entry),
    region.entries = .ok entries → ∀ entry ∈ entries, entry.IsLevel
  | ⟨range, tallies, children⟩, entries, flat, entry, member => by
    obtain ⟨span, inner, spanned, below, rfl⟩ := Region.entries_eq_ok.mp flat
    rcases List.mem_cons.mp member with rfl | deeper
    · exact SourceRange.level_of_span? spanned
    · exact level_of_entriesOf children inner below entry deeper

theorem level_of_entriesOf : ∀ (regions : List Region) (entries : List Entry),
    entriesOf regions = .ok entries → ∀ entry ∈ entries, entry.IsLevel
  | [], entries, flat, entry, member => by
    cases flat
    cases member
  | region :: rest, entries, flat, entry, member => by
    obtain ⟨own, others, first, later, rfl⟩ := entriesOf_cons_eq_ok.mp flat
    rcases List.mem_append.mp member with here | further
    · exact Region.level_of_entries region own first entry here
    · exact level_of_entriesOf rest others later entry further

end

/-- The last of the narrowest entries around the position, with those that stand before and after it. -/
structure IsNarrowest (position : Position) (before : List Entry) (chosen : Entry)
    (after : List Entry) : Prop where
  contains : chosen.span.contains position = true
  le : ∀ other ∈ before, other.span.contains position = true → chosen.width ≤ other.width
  lt : ∀ other ∈ after, other.span.contains position = true → chosen.width < other.width

theorem exists_narrowest {position : Position} (entries : List Entry)
    (around : ∃ entry ∈ entries, entry.span.contains position = true) :
    ∃ before chosen after, entries = before ++ chosen :: after ∧
      IsNarrowest position before chosen after := by
  induction entries with
  | nil => simp at around
  | cons first rest ih =>
    by_cases later : ∃ entry ∈ rest, entry.span.contains position = true
    · obtain ⟨before, chosen, after, rfl, narrowest⟩ := ih later
      by_cases better : first.span.contains position = true ∧ first.width < chosen.width
      · refine ⟨[], first, before ++ chosen :: after, rfl, better.1, nofun, ?_⟩
        intro other member inside
        rcases List.mem_append.mp member with earlier | further
        · exact Nat.lt_of_lt_of_le better.2 (narrowest.le other earlier inside)
        rcases List.mem_cons.mp further with rfl | final
        · exact better.2
        · exact Nat.lt_trans better.2 (narrowest.lt other final inside)
      · refine ⟨first :: before, chosen, after, rfl, narrowest.contains, ?_, narrowest.lt⟩
        intro other member inside
        rcases List.mem_cons.mp member with rfl | earlier
        · exact Nat.le_of_not_lt fun less => better ⟨inside, less⟩
        · exact narrowest.le other earlier inside
    · have outside : ∀ entry ∈ rest, ¬ entry.span.contains position = true :=
        fun entry member inside => later ⟨entry, member, inside⟩
      obtain ⟨entry, member, inside⟩ := around
      rcases List.mem_cons.mp member with rfl | further
      · exact ⟨[], entry, rest, rfl, inside, nofun,
          fun other among contains => absurd contains (outside other among)⟩
      · exact absurd inside (outside entry further)

theorem innermost_append {position : Position} (before : List Entry) {entry : Entry}
    (inside : entry.span.contains position = true) (after : List Entry) :
    innermost (before ++ entry :: after) position =
      (after.filter (Entry.surrounds position)).foldl narrow
        (narrow (innermost before position) entry) := by
  have kept : Entry.surrounds position entry = true := inside
  simp only [innermost_eq, List.filter_append, List.filter_cons_of_pos kept, List.foldl_append,
    List.foldl_cons]

theorem foldl_narrow_held {held : Entry} (entries : List Entry)
    (apart : ∀ entry ∈ entries, held.span.covers entry.span = false) :
    entries.foldl narrow (some held) = some held := by
  induction entries with
  | nil => rfl
  | cons entry rest ih =>
    obtain ⟨first, others⟩ := List.forall_mem_cons.mp apart
    simp only [List.foldl_cons, narrow, first, Bool.false_eq_true, if_false]
    exact ih others

theorem eq_or_mem_of_foldl_narrow {held chosen : Entry} (entries : List Entry)
    (folded : entries.foldl narrow (some held) = some chosen) :
    chosen = held ∨ chosen ∈ entries := by
  induction entries generalizing held with
  | nil =>
    cases folded
    exact .inl rfl
  | cons entry rest ih =>
    simp only [List.foldl_cons, narrow] at folded
    split at folded
    · rcases ih folded with rfl | later
      · exact .inr (List.mem_cons_self ..)
      · exact .inr (List.mem_cons_of_mem _ later)
    · rcases ih folded with rfl | later
      · exact .inl rfl
      · exact .inr (List.mem_cons_of_mem _ later)

namespace IsNarrowest

variable {position : Position} {before after : List Entry} {chosen : Entry}

theorem le_of_mem (narrowest : IsNarrowest position before chosen after) {entries : List Entry}
    (split : entries = before ++ chosen :: after) {other : Entry} (member : other ∈ entries)
    (inside : other.span.contains position = true) : chosen.width ≤ other.width := by
  rw [split] at member
  rcases List.mem_append.mp member with earlier | further
  · exact narrowest.le other earlier inside
  rcases List.mem_cons.mp further with rfl | later
  · exact Nat.le_refl _
  · exact Nat.le_of_lt (narrowest.lt other later inside)

/-- The narrowest entry is found if and only if the one held before it makes way for it. -/
theorem innermost_eq_some_iff (narrowest : IsNarrowest position before chosen after)
    (level : chosen.IsLevel) :
    innermost (before ++ chosen :: after) position = some chosen ↔
      ∀ held, innermost before position = some held → held.span.covers chosen.span = true := by
  rw [innermost_append before narrowest.contains after]
  constructor
  · intro folded held found
    by_contra apart
    simp only [found, narrow, apart, if_false] at folded
    rcases eq_or_mem_of_foldl_narrow _ folded with rfl | later
    · exact apart (Span.covers_self narrowest.contains)
    · obtain ⟨member, inside⟩ := List.mem_filter.mp later
      exact Nat.lt_irrefl _ (narrowest.lt chosen member inside)
  · intro covers
    rw [narrow_of_covers covers]
    apply foldl_narrow_held
    intro later member
    obtain ⟨further, inside⟩ := List.mem_filter.mp member
    by_contra covered
    have wider := narrowest.lt later further inside
    have fits := Entry.width_le_of_covers level (Bool.eq_true_of_not_eq_false covered)
    omega

end IsNarrowest

theorem IsInnermost.narrowest {entries : List Entry} {position : Position} {chosen : Entry}
    (innermost : IsInnermost entries position chosen)
    (level : ∀ entry ∈ entries, entry.IsLevel) :
    ∃ before after, entries = before ++ chosen :: after ∧
      IsNarrowest position (before.filter chosen.nests) chosen (after.filter chosen.nests) := by
  have wider : ∀ other ∈ entries, other.span.contains position = true →
      chosen.nests other = true → chosen.width ≤ other.width ∧
        (other.width ≤ chosen.width → other.span = chosen.span) := by
    intro other member inside nested
    rcases (Bool.or_eq_true_iff ..).mp nested with covers | covered
    · have same := innermost.least other member inside covers
      exact ⟨by simp [Entry.width, same], fun _ => same⟩
    · have narrower := Entry.width_le_of_covers (level other member) covered
      exact ⟨narrower, fun less =>
        (Entry.span_eq_of_covers (level other member) innermost.contains covered less).symm⟩
  obtain ⟨before, after, split, apart⟩ := innermost.last
  refine ⟨before, after, split, innermost.contains, ?_, ?_⟩
  · intro other member inside
    obtain ⟨earlier, nested⟩ := List.mem_filter.mp member
    exact (wider other (by simp [split, earlier]) inside nested).1
  · intro other member inside
    obtain ⟨later, nested⟩ := List.mem_filter.mp member
    have among : other ∈ entries := by simp [split, later]
    refine Nat.lt_of_not_le fun less => apart other later ?_
    exact (wider other among inside nested).2 less

/-- What the entry found at a position of a report measures: it is the narrowest of those that lie inside
it or around it, and the last one of that width. It is the last of the narrowest of all if and only if that
one lies inside whichever entry the ones before it leave, so always if it lies inside all of them. -/
theorem innermost_narrowest {regions : List Region} {entries : List Entry}
    (flat : entriesOf regions = .ok entries) {position : Position}
    (around : ∃ entry ∈ entries, entry.span.contains position = true) :
    (∀ entry ∈ entries, entry.IsLevel) ∧
    (∃ before chosen after, entries = before ++ chosen :: after ∧
      innermost entries position = some chosen ∧
      IsNarrowest position (before.filter chosen.nests) chosen (after.filter chosen.nests)) ∧
    ∃ before narrowest after, entries = before ++ narrowest :: after ∧
      IsNarrowest position before narrowest after ∧
      (innermost entries position = some narrowest ↔
        ∀ held, innermost before position = some held →
          held.span.covers narrowest.span = true) ∧
      ((∀ earlier ∈ before, earlier.span.contains position = true →
          earlier.span.covers narrowest.span = true) →
        innermost entries position = some narrowest) := by
  have level := level_of_entriesOf regions entries flat
  refine ⟨level, ?_, ?_⟩
  · obtain ⟨entry, member, inside⟩ := around
    obtain ⟨chosen, found⟩ := exists_innermost member inside
    obtain ⟨before, after, split, narrowest⟩ := (isInnermost_of_eq_some found).narrowest level
    exact ⟨before, chosen, after, split, found, narrowest⟩
  · obtain ⟨before, chosen, after, rfl, narrowest⟩ := exists_narrowest entries around
    have found := narrowest.innermost_eq_some_iff (level chosen (by simp))
    refine ⟨before, chosen, after, rfl, narrowest, found, ?_⟩
    intro covers
    rw [found]
    intro held earlier
    have innermost := isInnermost_of_eq_some earlier
    exact covers held innermost.mem innermost.contains

/-- What `signed||admin` is reported as. With the two columns added to it, the left side reaches the start
of the right one. -/
def disjunction : Region :=
  ⟨⟨1, 1, 0, 13⟩, times 1, [⟨⟨1, 1, 0, 6⟩, times 2, []⟩, ⟨⟨1, 9, 8, 13⟩, times 3, []⟩]⟩

def disjunctionEntries : List Entry :=
  [⟨⟨⟨0, 0⟩, ⟨0, 15⟩⟩, times 1⟩, ⟨⟨⟨0, 0⟩, ⟨0, 8⟩⟩, times 2⟩, ⟨⟨⟨0, 8⟩, ⟨0, 15⟩⟩, times 3⟩]

theorem entriesOf_disjunction : entriesOf [disjunction] = .ok disjunctionEntries := rfl

/-- In the middle of the right side the narrowest entry is that of the side. It lies inside the entry of the
whole expression, and is found. -/
theorem innermost_narrowest_disjunction : entriesOf [disjunction] = .ok disjunctionEntries ∧
    (∃ entry ∈ disjunctionEntries, entry.span.contains ⟨0, 10⟩ = true) ∧
    ∃ before narrowest after, disjunctionEntries = before ++ narrowest :: after ∧
      IsNarrowest ⟨0, 10⟩ before narrowest after ∧ narrowest = ⟨⟨⟨0, 8⟩, ⟨0, 15⟩⟩, times 3⟩ ∧
      innermost disjunctionEntries ⟨0, 10⟩ = some narrowest := by
  have around : ∃ entry ∈ disjunctionEntries, entry.span.contains ⟨0, 10⟩ = true :=
    ⟨_, List.mem_cons_self .., rfl⟩
  obtain ⟨_, _, before, narrowest, after, split, isNarrowest, _, found⟩ :=
    innermost_narrowest entriesOf_disjunction around
  have right : ⟨⟨⟨0, 8⟩, ⟨0, 15⟩⟩, times 3⟩ ∈ disjunctionEntries := by simp [disjunctionEntries]
  have narrow : narrowest.width ≤ 7 := isNarrowest.le_of_mem split right rfl
  have known : narrowest ∈ disjunctionEntries := by simp [split]
  have side : narrowest = ⟨⟨⟨0, 8⟩, ⟨0, 15⟩⟩, times 3⟩ := by
    simp only [disjunctionEntries, List.mem_cons, List.not_mem_nil, or_false] at known
    rcases known with rfl | rfl | rfl
    · simp [Entry.width] at narrow
    · simp [Entry.width] at narrow
    · rfl
  refine ⟨entriesOf_disjunction, around, before, narrowest, after, split, isNarrowest, side, found ?_⟩
  intro earlier member inside
  have listed : earlier ∈ disjunctionEntries := by simp [split, member]
  simp only [disjunctionEntries, List.mem_cons, List.not_mem_nil, or_false] at listed
  rw [side]
  rcases listed with rfl | rfl | rfl
  · rfl
  · cases inside
  · rfl

/-- Where the left side reaches the right one, its entry is held although the other one is narrower. -/
theorem wider_neighbour_held :
    ¬ ∀ (regions : List Region) (entries : List Entry) (position : Position),
      entriesOf regions = .ok entries →
      (∃ entry ∈ entries, entry.span.contains position = true) →
      ∃ before chosen after, entries = before ++ chosen :: after ∧
        innermost entries position = some chosen ∧ IsNarrowest position before chosen after := by
  intro always
  obtain ⟨before, chosen, after, split, found, narrowest⟩ :=
    always [disjunction] disjunctionEntries ⟨0, 8⟩ entriesOf_disjunction
      ⟨_, List.mem_cons_self .., rfl⟩
  have held : some ⟨⟨⟨0, 0⟩, ⟨0, 8⟩⟩, times 2⟩ = some chosen := found
  cases held
  have right : ⟨⟨⟨0, 8⟩, ⟨0, 15⟩⟩, times 3⟩ ∈ disjunctionEntries := by simp [disjunctionEntries]
  have narrower := narrowest.le_of_mem split right rfl
  simp [Entry.width] at narrower

end RulesAssist.Coverage
