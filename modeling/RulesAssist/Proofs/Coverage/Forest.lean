import Mathlib
import RulesAssist.Coverage.Report
import RulesAssist.Proofs.Position

/-! Regions inside regions, and going down to a position.

A forest is laid out if every region has a span, lies in the span of the region around it and shares no
position with the regions beside it. Then at most one region of every level contains a position, and
they lie inside each other.
-/

set_option autoImplicit false

namespace RulesAssist.Coverage

namespace Region

def Contains (region : Region) (position : Position) : Prop :=
  ∃ span, region.range.span? = some span ∧ span.contains position = true

/-- The region at a place inside a region, by the indices of the children on the way. -/
def below? : Region → List Nat → Option Region
  | region, [] => some region
  | region, index :: rest => region.children[index]?.bind (below? · rest)

end Region

def Apart (regions : List Region) : Prop :=
  regions.Pairwise fun one other => ∀ position, ¬ (one.Contains position ∧ other.Contains position)

inductive Among (regions : List Region) : Region → Prop where
  | root {region : Region} : region ∈ regions → Among regions region
  | child {region child : Region} :
      Among regions region → child ∈ region.children → Among regions child

structure Laid (regions : List Region) : Prop where
  spanned : ∀ region, Among regions region → ∃ span, region.range.span? = some span
  nested : ∀ region child outer inner, Among regions region → child ∈ region.children →
    region.range.span? = some outer → child.range.span? = some inner → outer.covers inner = true
  rootsApart : Apart regions
  childrenApart : ∀ region, Among regions region → Apart region.children

/-- Going down from a region, as long as one of the regions inside contains the position. -/
inductive Descent (position : Position) : Region → List Nat → Region → Prop where
  | rest {region : Region} : region.Contains position →
      (∀ child ∈ region.children, ¬ child.Contains position) → Descent position region [] region
  | down {region child deepest : Region} {index : Nat} {place : List Nat} :
      region.Contains position → region.children[index]? = some child →
      Descent position child place deepest → Descent position region (index :: place) deepest

theorem Apart.unique {regions : List Region} (apart : Apart regions) {position : Position}
    {index other : Nat} {region another : Region} (one : regions[index]? = some region)
    (two : regions[other]? = some another) (here : region.Contains position)
    (there : another.Contains position) : index = other := by
  obtain ⟨bound, rfl⟩ := List.getElem?_eq_some_iff.mp one
  obtain ⟨limit, rfl⟩ := List.getElem?_eq_some_iff.mp two
  rcases Nat.lt_trichotomy index other with before | same | after
  · exact absurd ⟨here, there⟩ (List.pairwise_iff_getElem.mp apart index other bound limit before position)
  · exact same
  · exact absurd ⟨there, here⟩ (List.pairwise_iff_getElem.mp apart other index limit bound after position)

theorem Region.separate {one other : Region} {first second : Span}
    (ends : one.range.span? = some first) (starts : other.range.span? = some second)
    (before : ¬ second.start ≤ first.stop) (position : Position) :
    ¬ (one.Contains position ∧ other.Contains position) := by
  rintro ⟨⟨span, found, inside⟩, another, known, within⟩
  rw [ends, Option.some.injEq] at found
  rw [starts, Option.some.injEq] at known
  subst found known
  exact before (Position.le_trans (Span.contains_iff.mp within).1 (Span.contains_iff.mp inside).2)

theorem Among.inside {regions : List Region} {region inner : Region} (outer : Among regions region)
    (among : Among region.children inner) : Among regions inner := by
  induction among with
  | root member => exact .child outer member
  | child _ member ih => exact .child ih member

theorem among_nil {region : Region} : ¬ Among [] region := by
  intro among
  induction among with
  | root member => cases member
  | child _ _ ih => exact ih

theorem among_cons {root region : Region} {rest : List Region} :
    Among (root :: rest) region ↔
      region = root ∨ Among root.children region ∨ Among rest region := by
  constructor
  · intro among
    induction among with
    | root member => exact (List.mem_cons.mp member).imp_right fun later => .inr (.root later)
    | child _ member ih =>
      rcases ih with rfl | inside | later
      · exact .inr (.inl (.root member))
      · exact .inr (.inl (.child inside member))
      · exact .inr (.inr (.child later member))
  · rintro (rfl | inside | later)
    · exact .root (List.mem_cons_self ..)
    · exact Among.inside (.root (List.mem_cons_self ..)) inside
    · induction later with
      | root member => exact .root (List.mem_cons_of_mem _ member)
      | child _ member ih => exact .child ih member

namespace Laid

variable {regions : List Region} {region inner : Region} {position : Position}

theorem contains_of_child (laid : Laid regions) (among : Among regions region)
    (member : inner ∈ region.children) (inside : inner.Contains position) :
    region.Contains position := by
  obtain ⟨outer, spanned⟩ := laid.spanned region among
  obtain ⟨span, found, contains⟩ := inside
  exact ⟨outer, spanned,
    Span.contains_of_covers (laid.nested region inner outer span among member spanned found) contains⟩

theorem contains_of_below (laid : Laid regions) (among : Among regions region) {place : List Nat}
    (below : region.below? place = some inner) (inside : inner.Contains position) :
    region.Contains position := by
  induction place generalizing region with
  | nil =>
    cases below
    exact inside
  | cons index rest ih =>
    obtain ⟨child, found, onward⟩ := Option.bind_eq_some_iff.mp below
    have member := List.mem_of_getElem? found
    exact laid.contains_of_child among member (ih (.child among member) onward)

end Laid

namespace Descent

variable {position : Position} {region deepest : Region} {place : List Nat}

theorem contains (descent : Descent position region place deepest) : region.Contains position := by
  cases descent with
  | rest here _ => exact here
  | down here _ _ => exact here

theorem leads (descent : Descent position region place deepest) :
    region.below? place = some deepest := by
  induction descent with
  | rest _ _ => rfl
  | down _ found _ ih => exact Option.bind_eq_some_iff.mpr ⟨_, found, ih⟩

theorem ends (descent : Descent position region place deepest) :
    deepest.Contains position ∧ ∀ child ∈ deepest.children, ¬ child.Contains position := by
  induction descent with
  | rest here outside => exact ⟨here, outside⟩
  | down _ _ _ ih => exact ih

theorem isPrefix (descent : Descent position region place deepest) {regions : List Region}
    (laid : Laid regions) (among : Among regions region) {other : List Nat} {inner : Region}
    (found : region.below? other = some inner) (inside : inner.Contains position) :
    other <+: place := by
  induction descent generalizing other with
  | rest _ none =>
    cases other with
    | nil => exact List.prefix_rfl
    | cons index rest =>
      obtain ⟨child, first, onward⟩ := Option.bind_eq_some_iff.mp found
      have member := List.mem_of_getElem? first
      exact absurd (laid.contains_of_below (.child among member) onward inside) (none child member)
  | down _ next descent ih =>
    cases other with
    | nil => exact List.nil_prefix
    | cons index rest =>
      obtain ⟨child, first, onward⟩ := Option.bind_eq_some_iff.mp found
      have member := List.mem_of_getElem? first
      have here := laid.contains_of_below (.child among member) onward inside
      -- Two children that contain the position are the same one.
      have same := (laid.childrenApart _ among).unique first next here descent.contains
      subst same
      rw [next, Option.some.injEq] at first
      subst first
      exact List.cons_prefix_cons.mpr ⟨rfl, ih (.child among member) onward⟩

end Descent

theorem Region.sizeOf_child {region child : Region} (member : child ∈ region.children) :
    sizeOf child < sizeOf region := by
  obtain ⟨range, tallies, children⟩ := region
  have smaller : sizeOf child < sizeOf children := List.sizeOf_lt_of_mem member
  simp only [Region.mk.sizeOf_spec]
  omega

/-- There is a way down from every region that contains the position. -/
theorem exists_descent {position : Position} (region : Region) (inside : region.Contains position) :
    ∃ place deepest, Descent position region place deepest := by
  by_cases further : ∃ child ∈ region.children, child.Contains position
  · obtain ⟨child, member, contains⟩ := further
    have smaller := Region.sizeOf_child member
    obtain ⟨index, found⟩ := List.getElem?_of_mem member
    obtain ⟨place, deepest, descent⟩ := exists_descent child contains
    exact ⟨index :: place, deepest, .down inside found descent⟩
  · exact ⟨[], region, .rest inside fun child member contains => further ⟨child, member, contains⟩⟩
termination_by sizeOf region

end RulesAssist.Coverage
