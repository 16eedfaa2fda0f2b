import Mathlib
import RulesAssist.Coverage.Phrase

/-! What is observed does not depend on the order of the members.

The rules below only ask which members there are. Members under distinct keys obey one of them, and it tells the
observation if no two members are tagged as compound. So another order of the members is put in the same words,
and where no rule fits, the tags are kept in the order in which they are written.
-/

set_option autoImplicit false

namespace RulesAssist.Coverage

section

variable {Kind : Type} {all : List Kind} {tag : Kind → String}

theorem find?_tag_eq_some_iff (own : ∀ kind, (all.find? fun other => tag other == tag kind) = some kind)
    {wanted : String} {kind : Kind} :
    (all.find? fun other => tag other == wanted) = some kind ↔ tag kind = wanted := by
  constructor
  · intro found
    simpa using List.find?_some found
  · rintro rfl
    exact own kind

end

theorem Literal.ofTag?_eq_some_iff {tag : String} {kind : Literal} :
    Literal.ofTag? tag = some kind ↔ kind.tag = tag :=
  find?_tag_eq_some_iff (by rintro (_ | _ | _ | _ | _ | _ | _ | _ | _ | _) <;> decide)

theorem Compound.ofTag?_eq_some_iff {tag : String} {kind : Compound} :
    Compound.ofTag? tag = some kind ↔ kind.tag = tag :=
  find?_tag_eq_some_iff (by rintro (_ | _ | _) <;> decide)

namespace Observation

open Json (Value)

def HasError (members : List (String × Value)) : Prop :=
  ∃ found, (errorTag, found) ∈ members ∧ found ≠ .null

def HasCompound (members : List (String × Value)) : Prop :=
  ∃ kind : Compound, kind.tag ∈ Keyed.keys members

/-- An error hides everything else, a compound tag hides the literals, and two literals hide each other. -/
@[mk_iff]
inductive Classified (members : List (String × Value)) : Observation → Prop where
  | error {found : Value} : (errorTag, found) ∈ members → found ≠ .null →
      Classified members (.error (causeOf found))
  | compound {kind : Compound} : ¬ HasError members → kind.tag ∈ Keyed.keys members →
      Classified members (.compound kind)
  | literal {kind : Literal} {value : Value} : ¬ HasError members → ¬ HasCompound members →
      (kind.tag, value) ∈ members →
      (∀ other : Literal, other.tag ∈ Keyed.keys members → other = kind) →
      Classified members (.literal kind value)
  | shortCircuited : members = [] → Classified members .shortCircuited
  | unrecognized : ¬ HasError members → ¬ HasCompound members →
      (¬ ∃! kind : Literal, kind.tag ∈ Keyed.keys members) → members ≠ [] →
      Classified members (.unrecognized (Keyed.keys members))

def withTags (tags : List String) : Observation → Observation
  | .unrecognized _ => .unrecognized tags
  | other => other

variable {members others : List (String × Value)} {observation : Observation}

theorem mem_keys {key : String} : key ∈ Keyed.keys members ↔ ∃ value, (key, value) ∈ members := by
  simp [Keyed.keys]

theorem keys_perm (reordered : members.Perm others) :
    (Keyed.keys members).Perm (Keyed.keys others) :=
  reordered.map _

theorem value_unique (distinct : (Keyed.keys members).Nodup) {key : String} {value other : Value}
    (one : (key, value) ∈ members) (two : (key, other) ∈ members) : value = other := by
  have found := Keyed.lookup_of_mem distinct one
  rw [Keyed.lookup_of_mem distinct two] at found
  exact (Option.some.inj found).symm

theorem error?_eq_some_iff (distinct : (Keyed.keys members).Nodup) {found : Value} :
    error? members = some found ↔ (errorTag, found) ∈ members ∧ found ≠ .null := by
  have stands : members.lookup errorTag = some found ↔ (errorTag, found) ∈ members :=
    ⟨Keyed.mem_of_lookup, Keyed.lookup_of_mem distinct⟩
  rw [← stands, error?]
  split
  · rename_i null
    simp only [null, Option.some.injEq, reduceCtorEq, false_iff, not_and, not_not]
    exact Eq.symm
  · rename_i other
    constructor
    · intro same
      refine ⟨same, ?_⟩
      rintro rfl
      exact other same
    · exact And.left

theorem error?_eq_none_iff (distinct : (Keyed.keys members).Nodup) :
    error? members = none ↔ ¬ HasError members := by
  simp [Option.eq_none_iff_forall_ne_some, error?_eq_some_iff distinct, HasError]

theorem compound_tag_mem {kind : Compound}
    (found : (members.findSome? fun member => Compound.ofTag? member.1) = some kind) :
    kind.tag ∈ Keyed.keys members := by
  obtain ⟨member, listed, tagged⟩ := List.exists_of_findSome?_eq_some found
  rw [Compound.ofTag?_eq_some_iff.mp tagged]
  exact List.mem_map_of_mem listed

theorem findSome?_eq_none_iff :
    (members.findSome? fun member => Compound.ofTag? member.1) = none ↔ ¬ HasCompound members := by
  constructor
  · rintro none ⟨kind, tagged⟩
    obtain ⟨value, member⟩ := mem_keys.mp tagged
    have missing := List.findSome?_eq_none_iff.mp none _ member
    rw [Compound.ofTag?_eq_some_iff.mpr rfl] at missing
    cases missing
  · intro free
    rw [Option.eq_none_iff_forall_ne_some]
    intro kind found
    exact free ⟨kind, compound_tag_mem found⟩

theorem mem_literals {kind : Literal} {value : Value} :
    (kind, value) ∈ literals members ↔ (kind.tag, value) ∈ members := by
  simp [literals, Literal.ofTag?_eq_some_iff]

theorem nodup_literals (distinct : (Keyed.keys members).Nodup) : (literals members).Nodup := by
  refine List.Nodup.filterMap ?_ (List.Nodup.of_map _ distinct)
  rintro ⟨key, value⟩ ⟨other, last⟩ ⟨kind, kept⟩ one two
  simp only [Option.mem_def, Option.map_eq_some_iff, Literal.ofTag?_eq_some_iff, Prod.mk.injEq] at one two
  obtain ⟨_, rfl, rfl, rfl⟩ := one
  obtain ⟨_, rfl, rfl, rfl⟩ := two
  rfl

theorem literals_eq_singleton_iff (distinct : (Keyed.keys members).Nodup) {kind : Literal} {value : Value} :
    literals members = [(kind, value)] ↔ (kind.tag, value) ∈ members ∧
      ∀ other : Literal, other.tag ∈ Keyed.keys members → other = kind := by
  constructor
  · intro only
    have all : ∀ other last, (other.tag, last) ∈ members → other = kind ∧ last = value := by
      intro other last member
      simpa [only] using mem_literals.mpr member
    refine ⟨mem_literals.mp (by simp [only]), fun other tagged => ?_⟩
    obtain ⟨last, member⟩ := mem_keys.mp tagged
    exact (all other last member).1
  · rintro ⟨member, only⟩
    rw [← List.perm_singleton, List.perm_ext_iff_of_nodup (nodup_literals distinct) (by simp)]
    rintro ⟨other, last⟩
    rw [mem_literals, List.mem_singleton, Prod.mk.injEq]
    constructor
    · intro also
      obtain rfl := only other (mem_keys.mpr ⟨last, also⟩)
      exact ⟨rfl, value_unique distinct also member⟩
    · rintro ⟨rfl, rfl⟩
      exact member

theorem classified_ofMembers (distinct : (Keyed.keys members).Nodup) :
    Classified members (ofMembers members) := by
  unfold ofMembers
  split
  · rename_i found had
    obtain ⟨member, held⟩ := (error?_eq_some_iff distinct).mp had
    exact .error member held
  · rename_i sound
    have calm := (error?_eq_none_iff distinct).mp sound
    split
    · rename_i kind found
      exact .compound calm (compound_tag_mem found)
    · rename_i free
      have simple := findSome?_eq_none_iff.mp free
      split
      · rename_i kind value only
        obtain ⟨member, alone⟩ := (literals_eq_singleton_iff distinct).mp only
        exact .literal calm simple member alone
      · rename_i several
        split
        · rename_i empty
          exact .shortCircuited (List.isEmpty_iff.mp empty)
        · rename_i filled
          refine .unrecognized calm simple ?_ (by simpa using filled)
          rintro ⟨kind, tagged, alone⟩
          obtain ⟨value, member⟩ := mem_keys.mp tagged
          exact several kind value ((literals_eq_singleton_iff distinct).mpr ⟨member, alone⟩)

def OneCompound (members : List (String × Value)) : Prop :=
  ∀ kind other : Compound, kind.tag ∈ Keyed.keys members → other.tag ∈ Keyed.keys members → kind = other

theorem Classified.ofMembers_eq (classified : Classified members observation)
    (distinct : (Keyed.keys members).Nodup) (single : OneCompound members) :
    ofMembers members = observation := by
  cases classified with
  | error member held => simp [ofMembers, (error?_eq_some_iff distinct).mpr ⟨member, held⟩]
  | @compound kind calm tagged =>
    cases found : members.findSome? fun member => Compound.ofTag? member.1 with
    | none => exact absurd ⟨kind, tagged⟩ (findSome?_eq_none_iff.mp found)
    | some other =>
      rw [single other kind (compound_tag_mem found) tagged] at found
      simp [ofMembers, (error?_eq_none_iff distinct).mpr calm, found]
  | literal calm simple member alone =>
    simp [ofMembers, (error?_eq_none_iff distinct).mpr calm, findSome?_eq_none_iff.mpr simple,
      (literals_eq_singleton_iff distinct).mpr ⟨member, alone⟩]
  | shortCircuited empty =>
    subst empty
    rfl
  | unrecognized calm simple several filled =>
    simp only [ofMembers, (error?_eq_none_iff distinct).mpr calm, findSome?_eq_none_iff.mpr simple]
    split
    · rename_i kind value only
      obtain ⟨member, alone⟩ := (literals_eq_singleton_iff distinct).mp only
      exact absurd ⟨kind, mem_keys.mpr ⟨value, member⟩, alone⟩ several
    · simp [filled, Keyed.keys]

theorem ofMembers_eq_iff (distinct : (Keyed.keys members).Nodup) (single : OneCompound members) :
    ofMembers members = observation ↔ Classified members observation := by
  constructor
  · rintro rfl
    exact classified_ofMembers distinct
  · exact fun classified => classified.ofMembers_eq distinct single

theorem Classified.perm (classified : Classified members observation) (reordered : members.Perm others) :
    Classified others (observation.withTags (Keyed.keys others)) := by
  have keys : ∀ key, key ∈ Keyed.keys others ↔ key ∈ Keyed.keys members := fun _ =>
    (keys_perm reordered).mem_iff.symm
  have errors : HasError others ↔ HasError members := by simp [HasError, reordered.mem_iff]
  have compounds : HasCompound others ↔ HasCompound members := by simp [HasCompound, keys]
  cases classified with
  | error member held => exact .error (reordered.mem_iff.mp member) held
  | compound calm tagged => exact .compound (errors.not.mpr calm) ((keys _).mpr tagged)
  | literal calm simple member alone =>
    exact .literal (errors.not.mpr calm) (compounds.not.mpr simple) (reordered.mem_iff.mp member)
      fun other tagged => alone other ((keys _).mp tagged)
  | shortCircuited empty => exact .shortCircuited (List.nil_perm.mp (empty ▸ reordered))
  | unrecognized calm simple several filled =>
    refine .unrecognized (errors.not.mpr calm) (compounds.not.mpr simple) ?_ ?_
    · simpa only [keys] using several
    · rintro rfl
      exact filled (List.perm_nil.mp reordered)

theorem phrase_withTags (observation : Observation) (tags : List String) (count : Nat) :
    Tally.phrase ⟨observation.withTags tags, count⟩ = Tally.phrase ⟨observation, count⟩ := by
  cases observation <;> rfl

/-- Members in another order give the same observation, in the same words, with the tags in their own order if
they are not recognized. It is an error exactly if one is there that is not null; else compound exactly if a
compound tag is there; else a literal exactly if one literal tag is there, whatever else is; and else it was
short-circuited exactly if there are no members. -/
theorem ofMembers_any_order (distinct : (Keyed.keys members).Nodup) (single : OneCompound members)
    (reordered : members.Perm others) :
    ofMembers others = (ofMembers members).withTags (Keyed.keys others) ∧
      (∀ count, Tally.phrase ⟨ofMembers others, count⟩ = Tally.phrase ⟨ofMembers members, count⟩) ∧
      (∀ cause, ofMembers members = .error cause ↔
        ∃ found, (errorTag, found) ∈ members ∧ found ≠ .null ∧ cause = causeOf found) ∧
      (∀ kind, ofMembers members = .compound kind ↔
        ¬ HasError members ∧ kind.tag ∈ Keyed.keys members) ∧
      (∀ kind value, ofMembers members = .literal kind value ↔
        ¬ HasError members ∧ ¬ HasCompound members ∧ (kind.tag, value) ∈ members ∧
          ∀ other : Literal, other.tag ∈ Keyed.keys members → other = kind) ∧
      (ofMembers members = .shortCircuited ↔ members = []) ∧
      ∀ tags, ofMembers members = .unrecognized tags ↔
        ¬ HasError members ∧ ¬ HasCompound members ∧
          (¬ ∃! kind : Literal, kind.tag ∈ Keyed.keys members) ∧ members ≠ [] ∧
          tags = Keyed.keys members := by
  have keys := keys_perm reordered
  have same : ofMembers others = (ofMembers members).withTags (Keyed.keys others) := by
    apply ((classified_ofMembers distinct).perm reordered).ofMembers_eq (keys.nodup_iff.mp distinct)
    intro kind other one two
    exact single kind other (keys.mem_iff.mpr one) (keys.mem_iff.mpr two)
  refine ⟨same, fun count => ?_, ?_⟩
  · rw [same, phrase_withTags]
  · simp only [ofMembers_eq_iff distinct single]
    simp [classified_iff]

/-- Two literal tags, a compound one, an error that is null and a tag that nobody knows. -/
def crowded : List (String × Value) :=
  [("stringValue", .string "x"), ("undefined", .null), ("listValue", .object []),
    ("boolValue", .bool false), ("mystery", .null)]

def lone : List (String × Value) :=
  [("mystery", .null), ("boolValue", .bool false), ("riddle", .null)]

theorem ofMembers_any_order_crowded :
    OneCompound crowded ∧ ofMembers crowded.reverse = .compound .list ∧
      Tally.phrase ⟨ofMembers crowded.reverse, 2⟩ = "`[listValue]` returned 2 times" ∧
      OneCompound lone ∧ ofMembers lone.reverse = .literal .bool (.bool false) := by
  have single : OneCompound crowded := by
    intro kind other one two
    cases kind <;> cases other <;> simp_all [crowded, Keyed.keys, Compound.tag]
  have none : ∀ kind : Compound, kind.tag ∉ Keyed.keys lone := by rintro (_ | _ | _) <;> decide
  have free : OneCompound lone := fun kind _ tagged => absurd tagged (none kind)
  obtain ⟨same, words, -, compound, -⟩ :=
    ofMembers_any_order (by decide) single (List.reverse_perm crowded).symm
  obtain ⟨unmoved, -, -, -, literal, -⟩ :=
    ofMembers_any_order (by decide) free (List.reverse_perm lone).symm
  have list : ofMembers crowded = .compound .list :=
    (compound .list).mpr ⟨by simp [HasError, crowded, errorTag], by decide⟩
  have bool : ofMembers lone = .literal .bool (.bool false) := by
    refine (literal .bool (.bool false)).mpr ⟨by simp [HasError, lone, errorTag], ?_, ?_, ?_⟩
    · rintro ⟨kind, tagged⟩
      exact none kind tagged
    · simp [lone, Literal.tag]
    · rintro (_ | _ | _ | _ | _ | _ | _ | _ | _ | _) <;> simp [lone, Keyed.keys, Literal.tag]
  refine ⟨single, ?_, ?_, free, ?_⟩
  · rw [same, list]
    rfl
  · rw [words, list]
    rfl
  · rw [unmoved, bool]
    rfl

-- Of two compound tags the first one counts, so here the order matters.
example : ofMembers [("mapValue", .null), ("listValue", .null)] = .compound .map := rfl

end Observation

end RulesAssist.Coverage
