/-! Association lists that keep the order in which their keys were first written.

Writing a key again changes its value and leaves it where it is. A list is read with `List.lookup`,
and the lemmas say what each way of writing does to what is read.
-/

set_option autoImplicit false

namespace RulesAssist.Keyed

variable {Key Value : Type} [DecidableEq Key]

/-- Write a value under a key: in place if the key is there, at the end if it is new. -/
def insert (key : Key) (value : Value) : List (Key × Value) → List (Key × Value)
  | [] => [(key, value)]
  | (other, old) :: rest =>
    if other = key then (key, value) :: rest else (other, old) :: insert key value rest

def erase (key : Key) (entries : List (Key × Value)) : List (Key × Value) :=
  entries.filter fun entry => entry.1 ≠ key

def keys (entries : List (Key × Value)) : List Key :=
  entries.map (·.1)

/-- What was written last under a key, if writing it again does not take away what was there. -/
def last? [BEq Key] (entries : List (Key × Value)) (key : Key) : Option Value :=
  entries.reverse.lookup key

def merge (base entries : List (Key × Value)) : List (Key × Value) :=
  entries.foldl (fun merged entry => insert entry.1 entry.2 merged) base

-- `List.lookup` compares by `==`, whichever instance that is, and writing compares by `=`.
theorem lookup_cons [BEq Key] [LawfulBEq Key] (key wanted : Key) (value : Value)
    (entries : List (Key × Value)) : ((key, value) :: entries).lookup wanted =
      if wanted = key then some value else entries.lookup wanted := by
  rw [List.lookup_cons]
  by_cases same : wanted = key
  · rw [if_pos same, beq_iff_eq.mpr same]
  · rw [if_neg same, beq_false_of_ne same]

theorem lookup_insert [BEq Key] [LawfulBEq Key] (key wanted : Key) (value : Value)
    (entries : List (Key × Value)) : (insert key value entries).lookup wanted =
      if wanted = key then some value else entries.lookup wanted := by
  induction entries with
  | nil => exact lookup_cons key wanted value []
  | cons entry rest ih =>
    obtain ⟨other, old⟩ := entry
    by_cases here : other = key
    · subst here
      by_cases same : wanted = other
      · simp [insert, same]
      · simp [insert, lookup_cons, same]
    · by_cases first : wanted = other
      · subst first
        simp [insert, here]
      · simp [insert, here, lookup_cons, first, ih]

theorem lookup_insert_self [BEq Key] [LawfulBEq Key] (key : Key) (value : Value)
    (entries : List (Key × Value)) : (insert key value entries).lookup key = some value :=
  (lookup_insert key key value entries).trans (if_pos rfl)

theorem lookup_insert_of_ne [BEq Key] [LawfulBEq Key] {key wanted : Key} (apart : wanted ≠ key)
    (value : Value) (entries : List (Key × Value)) :
    (insert key value entries).lookup wanted = entries.lookup wanted :=
  (lookup_insert key wanted value entries).trans (if_neg apart)

theorem lookup_erase [BEq Key] [LawfulBEq Key] (key wanted : Key) (entries : List (Key × Value)) :
    (erase key entries).lookup wanted = if wanted = key then none else entries.lookup wanted := by
  induction entries with
  | nil => simp [erase]
  | cons entry rest ih =>
    obtain ⟨other, old⟩ := entry
    unfold erase at ih ⊢
    by_cases here : other = key
    · subst here
      by_cases same : wanted = other
      · simpa [same] using ih
      · simpa [same, lookup_cons] using ih
    · by_cases first : wanted = other
      · subst first
        simp [here]
      · simpa [here, lookup_cons, first] using ih

theorem lookup_of_erase [BEq Key] [LawfulBEq Key] {key wanted : Key} {value : Value}
    {entries : List (Key × Value)} (found : (erase key entries).lookup wanted = some value) :
    wanted ≠ key ∧ entries.lookup wanted = some value := by
  rw [lookup_erase] at found
  split at found
  · cases found
  · rename_i apart
    exact ⟨apart, found⟩

theorem keys_insert (key : Key) (value : Value) (entries : List (Key × Value)) :
    keys (insert key value entries) =
      if key ∈ keys entries then keys entries else keys entries ++ [key] := by
  induction entries with
  | nil => simp [insert, keys]
  | cons entry rest ih =>
    obtain ⟨other, old⟩ := entry
    unfold keys at ih ⊢
    by_cases here : other = key
    · simp [insert, here]
    · by_cases later : key ∈ rest.map (·.1)
      · simp only [later, if_true] at ih
        simp [insert, here, later, ih]
      · simp only [later, if_false] at ih
        simp only [insert, here, if_false, List.map_cons, List.mem_cons, later, or_false,
          Ne.symm here, ih, List.cons_append]

theorem nodup_keys_insert {entries : List (Key × Value)} (distinct : (keys entries).Nodup)
    (key : Key) (value : Value) : (keys (insert key value entries)).Nodup := by
  rw [keys_insert]
  split
  · exact distinct
  · rename_i new
    rw [List.nodup_append]
    refine ⟨distinct, by simp, ?_⟩
    intro first member second same equal
    rw [List.mem_singleton] at same
    subst same
    subst equal
    exact new member

theorem mem_insert {key : Key} {value : Value} {entries : List (Key × Value)} {entry : Key × Value}
    (member : entry ∈ insert key value entries) : entry = (key, value) ∨ entry ∈ entries := by
  induction entries with
  | nil => exact .inl (List.mem_singleton.mp member)
  | cons first rest ih =>
    obtain ⟨other, old⟩ := first
    unfold insert at member
    split at member
    · exact (List.mem_cons.mp member).imp_right (List.mem_cons_of_mem _)
    · rcases List.mem_cons.mp member with rfl | later
      · exact .inr (List.mem_cons_self ..)
      · exact (ih later).imp_right (List.mem_cons_of_mem _)

theorem mem_merge {base entries : List (Key × Value)} {entry : Key × Value}
    (member : entry ∈ merge base entries) : entry ∈ base ∨ entry ∈ entries := by
  induction entries generalizing base with
  | nil => exact .inl member
  | cons first rest ih =>
    rcases ih member with before | later
    · rcases mem_insert before with rfl | old
      · exact .inr (List.mem_cons_self ..)
      · exact .inl old
    · exact .inr (List.mem_cons_of_mem _ later)

theorem nodup_keys_merge {base : List (Key × Value)} (distinct : (keys base).Nodup)
    (entries : List (Key × Value)) : (keys (merge base entries)).Nodup := by
  induction entries generalizing base with
  | nil => exact distinct
  | cons entry rest ih => exact ih (nodup_keys_insert distinct entry.1 entry.2)

theorem insert_of_new {key : Key} {entries : List (Key × Value)} (new : key ∉ keys entries)
    (value : Value) : insert key value entries = entries ++ [(key, value)] := by
  induction entries with
  | nil => rfl
  | cons entry rest ih =>
    obtain ⟨other, old⟩ := entry
    unfold keys at ih new
    rw [List.map_cons, List.mem_cons, not_or] at new
    rw [insert, if_neg (Ne.symm new.1), ih new.2, List.cons_append]

/-- Entries with distinct keys that are all new go to the end as they are. -/
theorem merge_of_new {base entries : List (Key × Value)}
    (distinct : (keys (base ++ entries)).Nodup) : merge base entries = base ++ entries := by
  induction entries generalizing base with
  | nil => exact (List.append_nil base).symm
  | cons entry rest ih =>
    obtain ⟨key, value⟩ := entry
    have new : key ∉ keys base := by
      intro member
      unfold keys at distinct member
      rw [List.map_append, List.nodup_append] at distinct
      exact distinct.2.2 key member key (List.mem_cons_self ..) rfl
    have step : merge base ((key, value) :: rest) = merge (base ++ [(key, value)]) rest :=
      congrArg (merge · rest) (insert_of_new new value)
    have same : base ++ (key, value) :: rest = base ++ [(key, value)] ++ rest := by simp
    rw [same] at distinct ⊢
    rw [step, ih distinct]

section

omit [DecidableEq Key]
variable [BEq Key]

theorem last?_append (entries others : List (Key × Value)) (key : Key) :
    last? (entries ++ others) key = (last? others key).or (last? entries key) := by
  rw [last?, List.reverse_append, List.lookup_append]
  rfl

theorem last?_cons (entry : Key × Value) (entries : List (Key × Value)) (key : Key) :
    last? (entry :: entries) key =
      (last? entries key).or (if key == entry.1 then some entry.2 else none) := by
  have alone : last? [entry] key = if key == entry.1 then some entry.2 else none := by
    rw [last?, List.reverse_singleton, List.lookup_cons, List.lookup_nil]
    cases key == entry.1 <;> rfl
  rw [← alone]
  exact last?_append [entry] entries key

theorem last?_eq_none [LawfulBEq Key] {entries : List (Key × Value)} {key : Key}
    (missing : ∀ entry ∈ entries, entry.1 ≠ key) : last? entries key = none := by
  apply List.lookup_eq_none_iff.mpr
  intro entry member
  exact bne_iff_ne.mpr (missing entry (List.mem_reverse.mp member)).symm

end

omit [DecidableEq Key] in
/-- With distinct keys, what stands under a key is what is found under it. -/
theorem lookup_of_mem [BEq Key] [LawfulBEq Key] {key : Key} {value : Value}
    {entries : List (Key × Value)} (distinct : (keys entries).Nodup)
    (member : (key, value) ∈ entries) : entries.lookup key = some value := by
  induction entries with
  | nil => cases member
  | cons entry rest ih =>
    obtain ⟨other, first⟩ := entry
    unfold keys at ih distinct
    rw [List.map_cons, List.nodup_cons] at distinct
    rcases List.mem_cons.mp member with same | later
    · cases same
      exact List.lookup_cons_self
    · have apart : key ≠ other := by
        rintro rfl
        exact distinct.1 (List.mem_map.mpr ⟨(key, value), later, rfl⟩)
      rw [List.lookup_cons, beq_false_of_ne apart]
      exact ih distinct.2 later

omit [DecidableEq Key] in
theorem mem_of_lookup [BEq Key] [LawfulBEq Key] {key : Key} {value : Value}
    {entries : List (Key × Value)} (found : entries.lookup key = some value) :
    (key, value) ∈ entries := by
  obtain ⟨before, after, split, _⟩ := List.lookup_eq_some_iff.mp found
  rw [split]
  exact List.mem_append_right _ (List.mem_cons_self ..)

omit [DecidableEq Key] in
theorem lookup_of_not_mem [BEq Key] [LawfulBEq Key] {key : Key} {entries : List (Key × Value)}
    (missing : key ∉ keys entries) : entries.lookup key = none := by
  apply List.lookup_eq_none_iff.mpr
  intro entry member
  apply bne_iff_ne.mpr
  rintro rfl
  exact missing (List.mem_map_of_mem member)

omit [DecidableEq Key] in
theorem last?_eq_lookup [BEq Key] [LawfulBEq Key] {entries : List (Key × Value)}
    (distinct : (keys entries).Nodup) (key : Key) : last? entries key = entries.lookup key := by
  induction entries with
  | nil => rfl
  | cons entry rest ih =>
    obtain ⟨new, unique⟩ := List.nodup_cons.mp distinct
    rw [last?_cons, ih unique, List.lookup_cons]
    by_cases same : key = entry.1
    · rw [same, lookup_of_not_mem new, beq_self_eq_true]
      rfl
    · rw [beq_false_of_ne same]
      exact Option.or_none ..

theorem lookup_merge [BEq Key] [LawfulBEq Key] (base entries : List (Key × Value)) (key : Key) :
    (merge base entries).lookup key = (last? entries key).or (base.lookup key) := by
  induction entries generalizing base with
  | nil => rfl
  | cons entry rest ih =>
    have step : merge base (entry :: rest) = merge (insert entry.1 entry.2 base) rest := rfl
    rw [step, ih, lookup_insert, last?_cons, Option.or_assoc]
    by_cases same : key = entry.1
    · rw [if_pos same, if_pos (beq_iff_eq.mpr same), Option.some_or]
    · rw [if_neg same, if_neg (mt beq_iff_eq.mp same), Option.none_or]

theorem nodup_keys_erase {entries : List (Key × Value)} (distinct : (keys entries).Nodup)
    (key : Key) : (keys (erase key entries)).Nodup :=
  distinct.sublist (List.filter_sublist.map _)

end RulesAssist.Keyed
