import Mathlib
import RulesAssist.Proofs.Coverage.Forest

/-! A flattened forest lists its regions in pre-order.

Pre-order is the lexicographic order of places: a place comes before those inside it, and what is inside
the first child comes before the second one. To flatten a forest is to take the entry of each region in
that order, up to the first one that has none. What is inside a place forms an interval of the order, so
that the entries from inside a region stand right behind its own.
-/

set_option autoImplicit false

namespace RulesAssist.Coverage

/-- The region at a place of a forest: the index of a root, then the indices of the children on the way. -/
def regionAt? (forest : List Region) : List Nat → Option Region
  | [] => none
  | index :: place => forest[index]?.bind (·.below? place)

/-- All places of the forest, in ascending lexicographic order. -/
structure IsPreorder (forest : List Region) (places : List (List Nat)) : Prop where
  ascending : places.Pairwise (· < ·)
  mem_iff : ∀ place, place ∈ places ↔ ∃ region, regionAt? forest place = some region

def Region.entry (region : Region) : Except Malformation Entry := do
  let span ← region.range.spanOrError
  return ⟨span, region.tallies⟩

mutual

/-- The places inside a region with the regions there, its own place first. -/
def Region.preorder : Region → List (List Nat × Region)
  | ⟨range, tallies, children⟩ => ([], ⟨range, tallies, children⟩) :: preorderFrom 0 children

/-- The places of regions that stand beside each other, the first one of them at the index. -/
def preorderFrom : Nat → List Region → List (List Nat × Region)
  | _, [] => []
  | index, region :: rest =>
    region.preorder.map (fun item => (index :: item.1, item.2)) ++ preorderFrom (index + 1) rest

end

mutual

theorem Region.entries_eq_mapM : ∀ region : Region,
    region.entries = region.preorder.mapM fun item => item.2.entry
  | ⟨range, tallies, children⟩ => by
    simp only [Region.entries, Region.preorder, List.mapM_cons, Region.entry, bind_assoc, pure_bind,
      entriesOf_eq_mapM children 0]

theorem entriesOf_eq_mapM : ∀ (regions : List Region) (index : Nat),
    entriesOf regions = (preorderFrom index regions).mapM fun item => item.2.entry
  | [], _ => by
    simp only [entriesOf, preorderFrom, List.mapM_nil]
    rfl
  | region :: rest, index => by
    simp only [entriesOf, preorderFrom, List.mapM_append, List.mapM_map,
      region.entries_eq_mapM, entriesOf_eq_mapM rest (index + 1)]
    rfl

end

mutual

theorem Region.mem_preorder {place : List Nat} {inner : Region} : ∀ region : Region,
    (place, inner) ∈ region.preorder ↔ region.below? place = some inner
  | ⟨range, tallies, children⟩ => by
    have below : (place, inner) ∈ preorderFrom 0 children ↔ _ := mem_preorderFrom children 0
    rw [Region.preorder, List.mem_cons, below]
    cases place with
    | nil => simp [Region.below?, eq_comm]
    | cons index rest => simp [Region.below?]

theorem mem_preorderFrom {place : List Nat} {inner : Region} : ∀ (regions : List Region) (index : Nat),
    (place, inner) ∈ preorderFrom index regions ↔
      ∃ offset rest, place = (index + offset) :: rest ∧
        regions[offset]?.bind (·.below? rest) = some inner
  | [], index => by simp [preorderFrom]
  | region :: others, index => by
    rw [preorderFrom, List.mem_append, mem_preorderFrom others (index + 1)]
    constructor
    · rintro (first | ⟨offset, rest, rfl, found⟩)
      · obtain ⟨⟨rest, _⟩, member, same⟩ := List.mem_map.mp first
        cases same
        exact ⟨0, rest, rfl, (Region.mem_preorder region).mp member⟩
      · exact ⟨offset + 1, rest, by rw [Nat.add_right_comm, Nat.add_assoc], found⟩
    · rintro ⟨offset, rest, rfl, found⟩
      cases offset with
      | zero => exact .inl (List.mem_map.mpr ⟨(rest, inner), (Region.mem_preorder region).mpr found, rfl⟩)
      | succ offset => exact .inr ⟨offset, rest, by rw [Nat.add_right_comm, Nat.add_assoc], found⟩

end

mutual

theorem Region.ascending_preorder : ∀ region : Region,
    (region.preorder.map (·.1)).Pairwise (· < ·)
  | ⟨range, tallies, children⟩ => by
    rw [Region.preorder, List.map_cons, List.pairwise_cons]
    refine ⟨?_, ascending_preorderFrom children 0⟩
    intro place listed
    obtain ⟨⟨_, inner⟩, member, rfl⟩ := List.mem_map.mp listed
    obtain ⟨offset, rest, rfl, _⟩ := (mem_preorderFrom children 0).mp member
    exact List.nil_lt_cons ..

theorem ascending_preorderFrom : ∀ (regions : List Region) (index : Nat),
    ((preorderFrom index regions).map (·.1)).Pairwise (· < ·)
  | [], _ => List.Pairwise.nil
  | region :: others, index => by
    rw [preorderFrom, List.map_append, List.map_map, List.pairwise_append]
    refine ⟨?_, ascending_preorderFrom others (index + 1), ?_⟩
    · have inner := List.pairwise_map.mp region.ascending_preorder
      refine List.pairwise_map.mpr (inner.imp ?_)
      intro one other before
      exact List.cons_lt_cons_iff.mpr (.inr ⟨rfl, before⟩)
    · intro one first other later
      obtain ⟨_, _, rfl⟩ := List.mem_map.mp first
      obtain ⟨⟨_, inner⟩, member, rfl⟩ := List.mem_map.mp later
      obtain ⟨offset, rest, rfl, _⟩ := (mem_preorderFrom others (index + 1)).mp member
      exact List.cons_lt_cons_iff.mpr (.inl (by omega))

end

theorem mem_preorderFrom_zero {forest : List Region} {place : List Nat} {region : Region} :
    (place, region) ∈ preorderFrom 0 forest ↔ regionAt? forest place = some region := by
  rw [mem_preorderFrom]
  cases place with
  | nil => simp [regionAt?]
  | cons index rest => simp [regionAt?]

theorem isPreorder_preorderFrom (forest : List Region) :
    IsPreorder forest ((preorderFrom 0 forest).map (·.1)) where
  ascending := ascending_preorderFrom forest 0
  mem_iff := by
    intro place
    simp [mem_preorderFrom_zero]

section Places

variable {place middle last : List Nat}

theorem not_lt_of_prefix (inside : place <+: last) : ¬ last < place := by
  induction place generalizing last with
  | nil => exact List.not_lt_nil last
  | cons index rest ih =>
    obtain ⟨tail, rfl⟩ := inside
    rw [List.cons_append, List.cons_lt_cons_iff]
    rintro (less | ⟨_, less⟩)
    · exact Nat.lt_irrefl index less
    · exact ih (List.prefix_append rest tail) less

/-- What is inside a place is an interval of the order. -/
theorem prefix_of_between (inside : place <+: last) (after : place < middle)
    (before : middle < last) : place <+: middle := by
  induction place generalizing middle last with
  | nil => exact List.nil_prefix
  | cons index rest ih =>
    obtain ⟨tail, rfl⟩ := inside
    cases middle with
    | nil => exact absurd after (List.not_lt_nil _)
    | cons other onward =>
      rw [List.cons_append, List.cons_lt_cons_iff] at before
      rw [List.cons_lt_cons_iff] at after
      have same : index = other := by omega
      subst same
      refine List.cons_prefix_cons.mpr ⟨rfl, ih (List.prefix_append rest tail) ?_ ?_⟩
      · exact after.elim (fun less => absurd less (Nat.lt_irrefl _)) And.right
      · exact before.elim (fun less => absurd less (Nat.lt_irrefl _)) And.right

variable {Item : Type} {items before later : List (List Nat × Item)} {item : Item}

theorem exists_split_inside (behind : ∀ other ∈ later, place < other.1)
    (ascending : later.Pairwise (·.1 < ·.1)) :
    ∃ inside after, later = inside ++ after ∧ (∀ other ∈ inside, place <+: other.1) ∧
      ∀ other ∈ after, ¬ place <+: other.1 := by
  induction later with
  | nil => exact ⟨[], [], rfl, nofun, nofun⟩
  | cons next rest ih =>
    obtain ⟨first, others⟩ := List.forall_mem_cons.mp behind
    obtain ⟨before, ascending⟩ := List.pairwise_cons.mp ascending
    by_cases reached : place <+: next.1
    · obtain ⟨inside, after, rfl, within, beyond⟩ := ih others ascending
      exact ⟨next :: inside, after, rfl, List.forall_mem_cons.mpr ⟨reached, within⟩, beyond⟩
    · refine ⟨[], next :: rest, rfl, nofun, List.forall_mem_cons.mpr ⟨reached, ?_⟩⟩
      intro other member inside
      exact reached (prefix_of_between inside first (before other member))

theorem exists_inside (ascending : (items.map (·.1)).Pairwise (· < ·))
    (split : items = before ++ (place, item) :: later) :
    ∃ inside after, later = inside ++ after ∧ (∀ other ∈ inside, place <+: other.1) ∧
      ∀ other ∈ before ++ after, ¬ place <+: other.1 := by
  rw [split, List.pairwise_map, List.pairwise_append, List.pairwise_cons] at ascending
  obtain ⟨_, ⟨behind, onward⟩, ahead⟩ := ascending
  obtain ⟨inside, after, rfl, within, beyond⟩ := exists_split_inside behind onward
  refine ⟨inside, after, rfl, within, fun other member reached => ?_⟩
  rcases List.mem_append.mp member with earlier | further
  · exact not_lt_of_prefix reached (ahead other earlier _ (List.mem_cons_self ..))
  · exact beyond other further reached

end Places

section Traversal

variable {Item Result Error : Type} {visit : Item → Except Error Result} {items : List Item}

theorem mapM_cons_of_error {item : Item} {error : Error} (failure : visit item = .error error) :
    (item :: items).mapM visit = .error error := by
  rw [List.mapM_cons, failure]
  rfl

theorem mapM_cons_of_ok {item : Item} {result : Result} (visited : visit item = .ok result) :
    (item :: items).mapM visit = (items.mapM visit).map (result :: ·) := by
  rw [List.mapM_cons, visited]
  rfl

theorem exists_pairs_of_mapM {results : List Result} (visited : items.mapM visit = .ok results) :
    ∃ pairs : List (Item × Result), pairs.map (·.1) = items ∧ pairs.map (·.2) = results ∧
      ∀ pair ∈ pairs, visit pair.1 = .ok pair.2 := by
  induction items generalizing results with
  | nil =>
    cases visited
    exact ⟨[], rfl, rfl, nofun⟩
  | cons item rest ih =>
    cases first : visit item with
    | error error =>
      rw [mapM_cons_of_error first] at visited
      cases visited
    | ok result =>
      rw [mapM_cons_of_ok first] at visited
      cases others : rest.mapM visit with
      | error error =>
        rw [others] at visited
        cases visited
      | ok later =>
        rw [others] at visited
        cases visited
        obtain ⟨pairs, rfl, rfl, each⟩ := ih others
        exact ⟨(item, result) :: pairs, rfl, rfl, List.forall_mem_cons.mpr ⟨first, each⟩⟩

theorem mapM_of_first_error {before after : List Item} {item : Item} {error : Error}
    (fine : ∀ earlier ∈ before, ∃ result, visit earlier = .ok result)
    (failure : visit item = .error error) :
    (before ++ item :: after).mapM visit = .error error := by
  induction before with
  | nil => exact mapM_cons_of_error failure
  | cons earlier others ih =>
    obtain ⟨⟨result, visited⟩, fine⟩ := List.forall_mem_cons.mp fine
    rw [List.cons_append, mapM_cons_of_ok visited, ih fine]
    rfl

theorem exists_first_of_mapM {error : Error} (failed : items.mapM visit = .error error) :
    ∃ before item after, items = before ++ item :: after ∧
      (∀ earlier ∈ before, ∃ result, visit earlier = .ok result) ∧ visit item = .error error := by
  induction items with
  | nil => cases failed
  | cons item rest ih =>
    cases first : visit item with
    | error found =>
      rw [mapM_cons_of_error first] at failed
      cases failed
      exact ⟨[], item, rest, rfl, nofun, first⟩
    | ok result =>
      rw [mapM_cons_of_ok first] at failed
      cases others : rest.mapM visit with
      | ok results =>
        rw [others] at failed
        cases failed
      | error later =>
        rw [others] at failed
        cases failed
        obtain ⟨before, culprit, after, rfl, fine, failure⟩ := ih others
        exact ⟨item :: before, culprit, after, rfl,
          List.forall_mem_cons.mpr ⟨⟨result, first⟩, fine⟩, failure⟩

theorem exists_mapM_eq_ok_iff :
    (∃ results, items.mapM visit = .ok results) ↔
      ∀ item ∈ items, ∃ result, visit item = .ok result := by
  constructor
  · rintro ⟨results, visited⟩ item member
    obtain ⟨pairs, rfl, _, each⟩ := exists_pairs_of_mapM visited
    obtain ⟨pair, listed, rfl⟩ := List.mem_map.mp member
    exact ⟨pair.2, each pair listed⟩
  · intro fine
    cases visited : items.mapM visit with
    | ok results => exact ⟨results, rfl⟩
    | error error =>
      obtain ⟨before, item, after, rfl, _, failure⟩ := exists_first_of_mapM visited
      obtain ⟨result, success⟩ := fine item (by simp)
      rw [failure] at success
      cases success

end Traversal

theorem Region.entry_eq_ok_iff {region : Region} {entry : Entry} :
    region.entry = .ok entry ↔
      region.range.spanOrError = .ok entry.span ∧ entry.tallies = region.tallies := by
  obtain ⟨span, tallies⟩ := entry
  unfold Region.entry
  cases region.range.spanOrError <;> simp [bind, Except.bind, pure, Except.pure, eq_comm]

theorem Region.exists_entry_iff {region : Region} :
    (∃ entry, region.entry = .ok entry) ↔ ∃ span, region.range.spanOrError = .ok span := by
  simp only [entry_eq_ok_iff]
  constructor
  · rintro ⟨entry, spanned, _⟩
    exact ⟨entry.span, spanned⟩
  · rintro ⟨span, spanned⟩
    exact ⟨⟨span, region.tallies⟩, spanned, rfl⟩

theorem Region.entry_eq_error_iff {region : Region} {error : Malformation} :
    region.entry = .error error ↔
      region.range.span? = none ∧ error = .outOfRange region.range := by
  unfold Region.entry SourceRange.spanOrError
  cases region.range.span? <;> simp [bind, Except.bind, pure, Except.pure, eq_comm]

/-- The entries of a forest, each at the place of its region. -/
structure Flattened (forest : List Region) (items : List (List Nat × Entry)) : Prop where
  preorder : IsPreorder forest (items.map (·.1))
  entry : ∀ place entry, (place, entry) ∈ items → ∃ region, regionAt? forest place = some region ∧
    region.range.spanOrError = .ok entry.span ∧ entry.tallies = region.tallies
  inside : ∀ before place entry later, items = before ++ (place, entry) :: later →
    ∃ inside after, later = inside ++ after ∧ (∀ other ∈ inside, place <+: other.1) ∧
      ∀ other ∈ before ++ after, ¬ place <+: other.1

theorem exists_flattened {forest : List Region} {entries : List Entry}
    (flat : entriesOf forest = .ok entries) :
    ∃ items, items.map (·.2) = entries ∧ Flattened forest items := by
  rw [entriesOf_eq_mapM forest 0] at flat
  obtain ⟨pairs, visited, rfl, each⟩ := exists_pairs_of_mapM flat
  have ordered := isPreorder_preorderFrom forest
  have places : (pairs.map fun pair => (pair.1.1, pair.2)).map (·.1) =
      (preorderFrom 0 forest).map (·.1) := by
    rw [← visited, List.map_map, List.map_map]
    rfl
  refine ⟨pairs.map fun pair => (pair.1.1, pair.2), by rw [List.map_map]; rfl, ?_, ?_, ?_⟩
  · rwa [places]
  · intro place entry member
    obtain ⟨⟨⟨place, region⟩, entry⟩, listed, same⟩ := List.mem_map.mp member
    cases same
    have visit : (place, region) ∈ preorderFrom 0 forest :=
      visited ▸ List.mem_map.mpr ⟨_, listed, rfl⟩
    exact ⟨region, mem_preorderFrom_zero.mp visit, Region.entry_eq_ok_iff.mp (each _ listed)⟩
  · intro before place entry later split
    exact exists_inside (places ▸ ordered.ascending) split

/-- Flattening finds the first region, in pre-order, that has no span. -/
theorem entriesOf_eq_error_iff {forest : List Region} {error : Malformation} :
    entriesOf forest = .error error ↔
      ∃ place region, regionAt? forest place = some region ∧ region.range.span? = none ∧
        error = .outOfRange region.range ∧
        ∀ earlier other, earlier < place → regionAt? forest earlier = some other →
          ∃ span, other.range.spanOrError = .ok span := by
  rw [entriesOf_eq_mapM forest 0]
  have ascending := ascending_preorderFrom forest 0
  constructor
  · intro failed
    obtain ⟨before, ⟨place, region⟩, after, split, fine, failure⟩ := exists_first_of_mapM failed
    have found : regionAt? forest place = some region :=
      mem_preorderFrom_zero.mp (by simp [split])
    obtain ⟨unspanned, rfl⟩ := Region.entry_eq_error_iff.mp failure
    refine ⟨place, region, found, unspanned, rfl, ?_⟩
    intro earlier other less there
    have visit : (earlier, other) ∈ before ++ (place, region) :: after :=
      split ▸ mem_preorderFrom_zero.mpr there
    -- All places up to the region without a span were visited before it.
    rw [split, List.pairwise_map, List.pairwise_append, List.pairwise_cons] at ascending
    rcases List.mem_append.mp visit with ahead | behind
    · exact Region.exists_entry_iff.mp (fine _ ahead)
    rcases List.mem_cons.mp behind with same | later
    · cases same
      exact absurd less (lt_irrefl _)
    · exact absurd (ascending.2.1.1 _ later) (lt_asymm less)
  · rintro ⟨place, region, found, unspanned, rfl, fine⟩
    obtain ⟨before, after, split⟩ := List.append_of_mem (mem_preorderFrom_zero.mpr found)
    rw [split, List.pairwise_map, List.pairwise_append] at ascending
    rw [split]
    refine mapM_of_first_error ?_ (Region.entry_eq_error_iff.mpr ⟨unspanned, rfl⟩)
    rintro ⟨earlier, other⟩ ahead
    have there : regionAt? forest earlier = some other :=
      mem_preorderFrom_zero.mp (by simp [split, ahead])
    exact Region.exists_entry_iff.mpr
      (fine earlier other (ascending.2.2 _ ahead _ (List.mem_cons_self ..)) there)

/-- A forest has entries exactly if all its regions have spans. They are then those of its regions in
pre-order, one for each region, and those from inside a region stand right behind its own. Otherwise the
error is that of the first region in pre-order that has no span. -/
theorem entriesOf_preorder (forest : List Region) :
    ((∃ entries, entriesOf forest = .ok entries) ↔
      ∀ place region, regionAt? forest place = some region →
        ∃ span, region.range.spanOrError = .ok span) ∧
    (∀ entries, entriesOf forest = .ok entries →
      ∃ items, items.map (·.2) = entries ∧ Flattened forest items) ∧
    ∀ error, entriesOf forest = .error error ↔
      ∃ place region, regionAt? forest place = some region ∧ region.range.span? = none ∧
        error = .outOfRange region.range ∧
        ∀ earlier other, earlier < place → regionAt? forest earlier = some other →
          ∃ span, other.range.spanOrError = .ok span := by
  refine ⟨?_, fun entries => exists_flattened, fun error => entriesOf_eq_error_iff⟩
  rw [entriesOf_eq_mapM forest 0, exists_mapM_eq_ok_iff]
  simp only [Prod.forall, mem_preorderFrom_zero, Region.exists_entry_iff]

def nested : List Region :=
  [⟨⟨1, 1, 0, 3⟩, [], [⟨⟨1, 1, 0, 1⟩, [], []⟩]⟩, ⟨⟨2, 1, 0, 1⟩, [], []⟩]

theorem entriesOf_preorder_nested :
    ∃ items, items.map (·.2) =
        [⟨⟨⟨0, 0⟩, ⟨0, 5⟩⟩, []⟩, ⟨⟨⟨0, 0⟩, ⟨0, 3⟩⟩, []⟩, ⟨⟨⟨1, 0⟩, ⟨1, 3⟩⟩, []⟩] ∧
      Flattened nested items :=
  (entriesOf_preorder nested).2.1 _ rfl

end RulesAssist.Coverage
