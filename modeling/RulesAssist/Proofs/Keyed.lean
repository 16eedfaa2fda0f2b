import Mathlib
import RulesAssist.Keyed

/-! Weights of association lists.

A list weighs what its values weigh together. Writing under a key takes the weight of the old value away
and brings that of the new one.
-/

set_option autoImplicit false

namespace RulesAssist.Keyed

variable {Key Value : Type} [DecidableEq Key]

def weight (measure : Value → Nat) (entries : List (Key × Value)) : Nat :=
  (entries.map fun entry => measure entry.2).sum

theorem weight_insert_of_some [BEq Key] [LawfulBEq Key] {key : Key} {old : Value}
    {entries : List (Key × Value)} (found : entries.lookup key = some old) (measure : Value → Nat)
    (new : Value) :
    weight measure (insert key new entries) + measure old =
      weight measure entries + measure new := by
  induction entries with
  | nil => cases found
  | cons entry rest ih =>
    obtain ⟨other, value⟩ := entry
    unfold weight at ih ⊢
    by_cases here : other = key
    · subst here
      rw [List.lookup_cons_self, Option.some.injEq] at found
      subst found
      simp only [insert, if_true, List.map_cons, List.sum_cons]
      omega
    · rw [lookup_cons, if_neg (Ne.symm here)] at found
      have later := ih found
      simp only [insert, here, if_false, List.map_cons, List.sum_cons] at later ⊢
      omega

theorem weight_insert_of_none [BEq Key] [LawfulBEq Key] {key : Key} {entries : List (Key × Value)}
    (missing : entries.lookup key = none) (measure : Value → Nat) (new : Value) :
    weight measure (insert key new entries) = weight measure entries + measure new := by
  induction entries with
  | nil => simp [weight, insert]
  | cons entry rest ih =>
    obtain ⟨other, value⟩ := entry
    unfold weight at ih ⊢
    by_cases here : other = key
    · subst here
      rw [List.lookup_cons_self] at missing
      cases missing
    · rw [lookup_cons, if_neg (Ne.symm here)] at missing
      have later := ih missing
      simp only [insert, here, if_false, List.map_cons, List.sum_cons] at later ⊢
      omega

omit [DecidableEq Key] in
theorem le_weight [BEq Key] [LawfulBEq Key] {key : Key} {value : Value}
    {entries : List (Key × Value)} (found : entries.lookup key = some value)
    (measure : Value → Nat) : measure value ≤ weight measure entries := by
  obtain ⟨before, after, split, _⟩ := List.lookup_eq_some_iff.mp found
  subst split
  simp only [weight, List.map_append, List.map_cons, List.sum_append, List.sum_cons]
  omega

theorem weight_erase {key : Key} {entries : List (Key × Value)} {measure : Value → Nat}
    (weightless : ∀ value, (key, value) ∈ entries → measure value = 0) :
    weight measure (erase key entries) = weight measure entries := by
  induction entries with
  | nil => rfl
  | cons entry rest ih =>
    obtain ⟨other, value⟩ := entry
    have later := ih fun value member => weightless value (List.mem_cons_of_mem _ member)
    unfold weight erase at later ⊢
    by_cases here : other = key
    · subst here
      have nothing := weightless value (List.mem_cons_self ..)
      simp only [ne_eq, not_true_eq_false, decide_false, List.filter_cons, Bool.false_eq_true,
        if_false, List.map_cons, List.sum_cons, nothing, Nat.zero_add]
      exact later
    · simp only [ne_eq, here, not_false_eq_true, decide_true, List.filter_cons, if_true,
        List.map_cons, List.sum_cons]
      exact congrArg (measure value + ·) later

end RulesAssist.Keyed
