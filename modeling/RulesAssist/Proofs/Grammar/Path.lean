import Mathlib
import RulesAssist.Grammar.Declaration

/-! Paths through fields, and how they are taken apart.

A path is a root and the keys that lead on from it, each behind a dot. If neither the root nor any key
has a dot of its own, the path says what they are.
-/

set_option autoImplicit false

namespace RulesAssist

/-- A name without the dot that joins the parts of a path. -/
def Plain (name : String) : Prop :=
  '.' ∉ name.toList

def pathOf (root : String) (keys : List String) : String :=
  keys.foldl dotted root

theorem pathOf_cons (root key : String) (keys : List String) :
    pathOf root (key :: keys) = pathOf (dotted root key) keys := rfl

theorem pathOf_concat (root : String) (keys : List String) (key : String) :
    pathOf root (keys ++ [key]) = dotted (pathOf root keys) key := by
  simp [pathOf]

def tailOf (keys : List String) : List Char :=
  keys.flatMap fun key => '.' :: key.toList

theorem toList_pathOf (root : String) (keys : List String) :
    (pathOf root keys).toList = root.toList ++ tailOf keys := by
  induction keys generalizing root with
  | nil => simp [pathOf, tailOf]
  | cons key rest ih =>
    rw [pathOf_cons, ih]
    simp [dotted, tailOf, String.toList_append]

theorem not_plain_pathOf (root : String) {keys : List String} (nonempty : keys ≠ []) :
    ¬ Plain (pathOf root keys) := by
  unfold Plain
  rw [toList_pathOf]
  cases keys with
  | nil => exact absurd rfl nonempty
  | cons key rest => simp [tailOf]

theorem takeWhile_tailOf (keys : List String) : (tailOf keys).takeWhile (· ≠ '.') = [] := by
  cases keys <;> simp [tailOf]

theorem append_tailOf_inj {first second : List Char} {keys others : List String}
    (plain : '.' ∉ first) (simple : '.' ∉ second)
    (same : first ++ tailOf keys = second ++ tailOf others) :
    first = second ∧ tailOf keys = tailOf others := by
  -- The first dot ends the part before it, whatever follows.
  have leading : ∀ (part : List Char) (keys : List String), '.' ∉ part →
      (part ++ tailOf keys).takeWhile (· ≠ '.') = part := by
    intro part keys plain
    rw [List.takeWhile_append_of_pos, takeWhile_tailOf, List.append_nil]
    intro char member
    apply decide_eq_true
    rintro rfl
    exact plain member
  have heads : first = second := by
    rw [← leading first keys plain, ← leading second others simple, same]
  subst heads
  exact ⟨rfl, List.append_cancel_left same⟩

theorem tailOf_inj {keys others : List String} (plain : ∀ key ∈ keys, Plain key)
    (simple : ∀ key ∈ others, Plain key) (same : tailOf keys = tailOf others) : keys = others := by
  induction keys generalizing others with
  | nil =>
    cases others with
    | nil => rfl
    | cons other rest => simp [tailOf] at same
  | cons key rest ih =>
    cases others with
    | nil => simp [tailOf] at same
    | cons other those =>
      unfold tailOf at same
      rw [List.flatMap_cons, List.flatMap_cons, List.cons_append, List.cons_append,
        List.cons.injEq] at same
      obtain ⟨heads, tails⟩ := append_tailOf_inj (plain key (List.mem_cons_self ..))
        (simple other (List.mem_cons_self ..)) same.2
      rw [String.toList_inj.mp heads, ih (fun _ member => plain _ (List.mem_cons_of_mem _ member))
        (fun _ member => simple _ (List.mem_cons_of_mem _ member)) tails]

theorem pathOf_inj_keys {root : String} {keys others : List String} (plain : ∀ key ∈ keys, Plain key)
    (simple : ∀ key ∈ others, Plain key) (same : pathOf root keys = pathOf root others) :
    keys = others := by
  have chars := congrArg String.toList same
  rw [toList_pathOf, toList_pathOf] at chars
  exact tailOf_inj plain simple (List.append_cancel_left chars)

theorem pathOf_cons_ne (root : String) {key : String} {keys : List String}
    (plain : ∀ inner ∈ key :: keys, Plain inner) : pathOf root (key :: keys) ≠ root := fun same =>
  List.cons_ne_nil key keys (@pathOf_inj_keys root _ [] plain nofun same)

theorem pathOf_inj {root other : String} {keys others : List String} (rooted : Plain root)
    (grounded : Plain other) (plain : ∀ key ∈ keys, Plain key) (simple : ∀ key ∈ others, Plain key)
    (same : pathOf root keys = pathOf other others) : root = other ∧ keys = others := by
  have chars := congrArg String.toList same
  rw [toList_pathOf, toList_pathOf] at chars
  obtain ⟨heads, tails⟩ := append_tailOf_inj rooted grounded chars
  exact ⟨String.toList_inj.mp heads, tailOf_inj plain simple tails⟩

/-- Every text is a path of plain parts. -/
theorem exists_pathOf (text : String) :
    ∃ root keys, Plain root ∧ (∀ key ∈ keys, Plain key) ∧ text = pathOf root keys := by
  -- Characters are taken from the end, so a dot closes the key behind it.
  have split : ∀ chars : List Char, ∃ (first : List Char) (keys : List String), '.' ∉ first ∧
      (∀ key ∈ keys, Plain key) ∧ chars = first ++ tailOf keys := by
    intro chars
    induction chars with
    | nil => exact ⟨[], [], List.not_mem_nil, nofun, rfl⟩
    | cons char rest ih =>
      obtain ⟨first, keys, plain, simple, same⟩ := ih
      by_cases dot : char = '.'
      · refine ⟨[], String.ofList first :: keys, List.not_mem_nil, ?_, ?_⟩
        · intro key member
          rcases List.mem_cons.mp member with rfl | later
          · simpa [Plain] using plain
          · exact simple key later
        · simp [tailOf, dot, same]
      · refine ⟨char :: first, keys, ?_, simple, by rw [same, List.cons_append]⟩
        simp [plain, Ne.symm dot]
  obtain ⟨first, keys, plain, simple, same⟩ := split text.toList
  refine ⟨String.ofList first, keys, by simpa [Plain] using plain, simple, ?_⟩
  apply String.toList_inj.mp
  rw [toList_pathOf, String.toList_ofList, same]

end RulesAssist
