import RulesAssist.Coverage.Innermost
import RulesAssist.Proofs.Coverage.Forest

/-! The innermost entry of a flattened forest is the one that going down the forest ends at.

A region outside of which the position lies brings no entry around the position, nor does any region
inside it. So the entries around a position are those of the regions on the way down, in that order, and
each of them covers the next one.
-/

set_option autoImplicit false

namespace RulesAssist.Coverage

theorem Region.entries_eq_ok {region : Region} {entries : List Entry} :
    region.entries = .ok entries ↔ ∃ span inner, region.range.span? = some span ∧
      entriesOf region.children = .ok inner ∧ entries = ⟨span, region.tallies⟩ :: inner := by
  obtain ⟨range, tallies, children⟩ := region
  unfold Region.entries SourceRange.spanOrError
  cases range.span? with
  | none => simp [bind, Except.bind]
  | some span =>
    cases entriesOf children with
    | error error => simp [bind, Except.bind]
    | ok inner => simp [bind, Except.bind, pure, Except.pure, eq_comm]

theorem entriesOf_cons_eq_ok {region : Region} {rest : List Region} {entries : List Entry} :
    entriesOf (region :: rest) = .ok entries ↔ ∃ own others, region.entries = .ok own ∧
      entriesOf rest = .ok others ∧ entries = own ++ others := by
  rw [entriesOf]
  cases region.entries with
  | error error => simp [bind, Except.bind]
  | ok own =>
    cases entriesOf rest with
    | error error => simp [bind, Except.bind]
    | ok others => simp [bind, Except.bind, pure, Except.pure, eq_comm]

def Entry.surrounds (position : Position) (entry : Entry) : Bool :=
  entry.span.contains position

theorem innermost_eq (entries : List Entry) (position : Position) :
    innermost entries position = (entries.filter (Entry.surrounds position)).foldl narrow none := rfl

namespace Laid

variable {forest : List Region}

mutual

theorem exists_entries (laid : Laid forest) : ∀ region : Region, Among forest region →
    ∃ entries, region.entries = .ok entries
  | ⟨range, tallies, children⟩, among => by
    obtain ⟨span, spanned⟩ := laid.spanned _ among
    obtain ⟨inner, flat⟩ := laid.exists_entriesOf children fun _ member => .child among member
    exact ⟨_, Region.entries_eq_ok.mpr ⟨span, inner, spanned, flat, rfl⟩⟩

theorem exists_entriesOf (laid : Laid forest) : ∀ regions : List Region,
    (∀ region ∈ regions, Among forest region) → ∃ entries, entriesOf regions = .ok entries
  | [], _ => ⟨[], rfl⟩
  | region :: rest, among => by
    obtain ⟨own, first⟩ := laid.exists_entries region (among region (List.mem_cons_self ..))
    obtain ⟨others, later⟩ :=
      laid.exists_entriesOf rest fun other member => among other (List.mem_cons_of_mem _ member)
    exact ⟨_, entriesOf_cons_eq_ok.mpr ⟨own, others, first, later, rfl⟩⟩

end

variable {position : Position}

mutual

theorem filter_outside (laid : Laid forest) : ∀ (region : Region) (entries : List Entry),
    Among forest region → region.entries = .ok entries → ¬ region.Contains position →
    entries.filter (Entry.surrounds position) = []
  | ⟨range, tallies, children⟩, entries, among, flat, outside => by
    obtain ⟨span, inner, spanned, below, rfl⟩ := Region.entries_eq_ok.mp flat
    have missed : ¬ Entry.surrounds position ⟨span, tallies⟩ = true :=
      fun surrounds => outside ⟨span, spanned, surrounds⟩
    rw [List.filter_cons_of_neg missed]
    exact laid.filter_outsideAll children inner (fun _ member => .child among member) below
      fun _ member contains => outside (laid.contains_of_child among member contains)

theorem filter_outsideAll (laid : Laid forest) : ∀ (regions : List Region) (entries : List Entry),
    (∀ region ∈ regions, Among forest region) → entriesOf regions = .ok entries →
    (∀ region ∈ regions, ¬ region.Contains position) →
    entries.filter (Entry.surrounds position) = []
  | [], entries, _, flat, _ => by
    cases flat
    rfl
  | region :: rest, entries, among, flat, outside => by
    obtain ⟨own, others, first, later, rfl⟩ := entriesOf_cons_eq_ok.mp flat
    rw [List.filter_append,
      laid.filter_outside region own (among region (List.mem_cons_self ..)) first
        (outside region (List.mem_cons_self ..)),
      laid.filter_outsideAll rest others
        (fun other member => among other (List.mem_cons_of_mem _ member)) later
        fun other member => outside other (List.mem_cons_of_mem _ member)]
    rfl

end

theorem filter_alone (laid : Laid forest) {regions : List Region} {entries : List Entry}
    (among : ∀ region ∈ regions, Among forest region) (apart : Apart regions)
    (flat : entriesOf regions = .ok entries) {index : Nat} {region : Region}
    (found : regions[index]? = some region) (inside : region.Contains position) :
    ∃ own, region.entries = .ok own ∧
      entries.filter (Entry.surrounds position) = own.filter (Entry.surrounds position) := by
  induction regions generalizing entries index with
  | nil => cases found
  | cons first rest ih =>
    obtain ⟨own, others, here, later, rfl⟩ := entriesOf_cons_eq_ok.mp flat
    obtain ⟨separate, apart⟩ := List.pairwise_cons.mp apart
    have amongRest : ∀ other ∈ rest, Among forest other :=
      fun other member => among other (List.mem_cons_of_mem _ member)
    rw [List.filter_append]
    cases index with
    | zero =>
      cases found
      have silent := laid.filter_outsideAll rest others amongRest later
        fun other member contains => separate other member position ⟨inside, contains⟩
      exact ⟨own, here, by rw [silent, List.append_nil]⟩
    | succ index =>
      have member := List.mem_of_getElem? found
      have silent := laid.filter_outside first own (among first (List.mem_cons_self ..)) here
        fun contains => separate region (List.mem_of_getElem? found) position ⟨contains, inside⟩
      rw [silent, List.nil_append]
      exact ih amongRest apart later found

end Laid

theorem narrow_of_covers {chosen : Option Entry} {next : Entry}
    (covers : ∀ entry, chosen = some entry → entry.span.covers next.span = true) :
    narrow chosen next = some next := by
  cases chosen with
  | none => rfl
  | some entry => exact if_pos (covers entry rfl)

theorem foldl_narrow_own {position : Position} {region : Region} (inside : region.Contains position)
    {entries : List Entry} (flat : region.entries = .ok entries) {chosen : Option Entry}
    (covers : ∀ entry span, chosen = some entry → region.range.span? = some span →
      entry.span.covers span = true) :
    ∃ span inner, region.range.span? = some span ∧ entriesOf region.children = .ok inner ∧
      (entries.filter (Entry.surrounds position)).foldl narrow chosen =
        (inner.filter (Entry.surrounds position)).foldl narrow (some ⟨span, region.tallies⟩) := by
  obtain ⟨span, inner, spanned, below, rfl⟩ := Region.entries_eq_ok.mp flat
  obtain ⟨own, found, contains⟩ := inside
  rw [spanned, Option.some.injEq] at found
  subst found
  have surrounds : Entry.surrounds position ⟨span, region.tallies⟩ = true := contains
  refine ⟨span, inner, spanned, below, ?_⟩
  rw [List.filter_cons_of_pos surrounds, List.foldl_cons,
    narrow_of_covers fun entry same => covers entry span same spanned]

/-- Each entry on the way down covers the next one, so the last one is chosen. -/
theorem Descent.foldl_narrow {forest : List Region} (laid : Laid forest) {position : Position}
    {region deepest : Region} {place : List Nat} (descent : Descent position region place deepest)
    (among : Among forest region) {entries : List Entry} (flat : region.entries = .ok entries)
    (chosen : Option Entry)
    (covers : ∀ entry span, chosen = some entry → region.range.span? = some span →
      entry.span.covers span = true) :
    ∃ span, deepest.range.span? = some span ∧
      (entries.filter (Entry.surrounds position)).foldl narrow chosen =
        some ⟨span, deepest.tallies⟩ := by
  induction descent generalizing entries chosen with
  | rest here outside =>
    obtain ⟨span, inner, spanned, below, folded⟩ := foldl_narrow_own here flat covers
    have silent := laid.filter_outsideAll _ inner (fun _ member => .child among member) below outside
    rw [silent] at folded
    exact ⟨span, spanned, folded⟩
  | down here next descent ih =>
    obtain ⟨span, inner, spanned, below, folded⟩ := foldl_narrow_own here flat covers
    have member := List.mem_of_getElem? next
    obtain ⟨own, single, same⟩ := laid.filter_alone (fun _ member => .child among member)
      (laid.childrenApart _ among) below next descent.contains
    rw [folded, same]
    refine ih (.child among member) single _ ?_
    rintro entry inside ⟨⟩ found
    exact laid.nested _ _ span inside among member spanned found

/-- What is observed at a position of a forest that is laid out well: nothing if no root contains it, else
what the region observed that going down from the only root around it ends at. Whatever contains the
position lies on the way down, and a region with the span of its parent is preferred to it. -/
theorem talliesAt_descent {regions : List Region} (laid : Laid regions) :
    ∃ entries, entriesOf regions = .ok entries ∧ ∀ position,
      (talliesAt entries position = none ↔ ∀ root ∈ regions, ¬ root.Contains position) ∧
      ∀ (index : Nat) (root : Region), regions[index]? = some root → root.Contains position →
        (∀ (other : Nat) (region : Region), regions[other]? = some region →
          region.Contains position → other = index) ∧
        ∃ place deepest, Descent position root place deepest ∧
          root.below? place = some deepest ∧ talliesAt entries position = some deepest.tallies ∧
          (∀ (other : List Nat) (region : Region), root.below? other = some region →
            region.Contains position → other <+: place) ∧
          ∀ (above : List Nat) (parent child : Region), root.below? above = some parent →
            child ∈ parent.children → child.range.span? = parent.range.span? → above ≠ place := by
  have among : ∀ root ∈ regions, Among regions root := fun _ member => .root member
  obtain ⟨entries, flat⟩ := laid.exists_entriesOf regions among
  refine ⟨entries, flat, fun position => ?_⟩
  -- All that contains the position lies on one way down, so the innermost entry is its end.
  have reached : ∀ (index : Nat) (root : Region), regions[index]? = some root →
      root.Contains position → ∃ place deepest, Descent position root place deepest ∧
        talliesAt entries position = some deepest.tallies := by
    intro index root found inside
    obtain ⟨place, deepest, descent⟩ := exists_descent root inside
    obtain ⟨own, single, same⟩ := laid.filter_alone among laid.rootsApart flat found inside
    obtain ⟨span, _, chosen⟩ := descent.foldl_narrow laid (among root (List.mem_of_getElem? found))
      single none nofun
    refine ⟨place, deepest, descent, ?_⟩
    rw [talliesAt, innermost_eq, same, chosen]
    rfl
  refine ⟨⟨?_, ?_⟩, ?_⟩
  · intro missing root member inside
    obtain ⟨index, found⟩ := List.getElem?_of_mem member
    obtain ⟨_, _, _, answered⟩ := reached index root found inside
    rw [missing] at answered
    cases answered
  · intro outside
    rw [talliesAt, innermost_eq, laid.filter_outsideAll regions entries among flat outside]
    rfl
  · intro index root found inside
    refine ⟨fun other (region : Region) one here =>
      laid.rootsApart.unique one found here inside, ?_⟩
    obtain ⟨place, deepest, descent, answered⟩ := reached index root found inside
    refine ⟨place, deepest, descent, descent.leads, answered, ?_, ?_⟩
    · intro other region below contains
      exact descent.isPrefix laid (among root (List.mem_of_getElem? found)) below contains
    · rintro above parent child below member same rfl
      rw [descent.leads, Option.some.injEq] at below
      subst below
      obtain ⟨⟨span, spanned, contains⟩, outside⟩ := descent.ends
      exact outside child member ⟨span, same.trans spanned, contains⟩

def times (count : Nat) : List Tally := [⟨.shortCircuited, count⟩]

def innerTwin : Region := ⟨⟨1, 5, 4, 8⟩, times 3, []⟩

def outerTwin : Region := ⟨⟨1, 5, 4, 8⟩, times 2, [innerTwin]⟩

def neighbour : Region := ⟨⟨1, 12, 11, 14⟩, times 4, []⟩

def firstLine : Region := ⟨⟨1, 1, 0, 18⟩, times 1, [outerTwin, neighbour]⟩

def secondLine : Region := ⟨⟨2, 1, 20, 25⟩, times 5, []⟩

theorem laid_twins : Laid [firstLine, secondLine] where
  spanned := by
    intro region among
    simp only [among_cons, among_nil, firstLine, secondLine, outerTwin, innerTwin, neighbour,
      or_false] at among
    rcases among with rfl | (rfl | rfl | rfl) | rfl <;> exact ⟨_, rfl⟩
  nested := by
    intro region child outer inner among member
    simp only [among_cons, among_nil, firstLine, secondLine, outerTwin, innerTwin, neighbour,
      or_false] at among
    rcases among with rfl | (rfl | rfl | rfl) | rfl
    · rcases List.mem_pair.mp member with rfl | rfl <;> rintro ⟨⟩ ⟨⟩ <;> decide
    · rcases List.mem_singleton.mp member with rfl
      rintro ⟨⟩ ⟨⟩
      decide
    all_goals cases member
  rootsApart := List.pairwise_pair.mpr (Region.separate rfl rfl (by decide))
  childrenApart := by
    intro region among
    simp only [among_cons, among_nil, firstLine, secondLine, outerTwin, innerTwin, neighbour,
      or_false] at among
    rcases among with rfl | (rfl | rfl | rfl) | rfl
    · exact List.pairwise_pair.mpr (Region.separate rfl rfl (by decide))
    · exact List.pairwise_singleton ..
    all_goals exact List.Pairwise.nil

/-- The last column of two regions with the same span: the inner one is found. -/
theorem talliesAt_descent_twins : Laid [firstLine, secondLine] ∧
    ∃ entries, entriesOf [firstLine, secondLine] = .ok entries ∧
      talliesAt entries ⟨0, 10⟩ = some (times 3) := by
  obtain ⟨entries, flat, found⟩ := talliesAt_descent laid_twins
  obtain ⟨_, place, deepest, _, leads, answered, above, _⟩ :=
    (found ⟨0, 10⟩).2 0 firstLine rfl ⟨⟨⟨0, 0⟩, ⟨0, 20⟩⟩, rfl, rfl⟩
  obtain ⟨rest, rfl⟩ := above [0, 0] innerTwin rfl ⟨⟨⟨0, 4⟩, ⟨0, 10⟩⟩, rfl, rfl⟩
  -- There is nothing inside the inner one.
  cases rest with
  | nil =>
    cases leads
    exact ⟨laid_twins, entries, flat, answered⟩
  | cons index rest => cases leads

end RulesAssist.Coverage
