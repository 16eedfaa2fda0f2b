import Mathlib
import RulesAssist.Text.Word

/-! The word around a column is a whole run of word characters, and the column touches it.

Which characters make up words does not matter here. Looking back from a column the run goes as far as
looking forward: the characters that are taken on both sides are word characters, and those at which the
taking stops are not.
-/

set_option autoImplicit false

namespace RulesAssist.Text

/-- The word stands at the columns of the line, is made of word characters, and no word character is
right before or right after it. -/
structure IsRun (isWord : Char → Bool) (line : List Char) (columns : Columns) (word : List Char) :
    Prop where
  stands : ∃ before after, line = before ++ word ++ after ∧ before.length = columns.start ∧
    (∀ char, before.getLast? = some char → isWord char = false) ∧
    ∀ char, after.head? = some char → isWord char = false
  stop_eq : columns.stop = columns.start + word.length
  nonempty : word ≠ []
  words : ∀ char ∈ word, isWord char = true

theorem IsRun.wordIn {isWord : Char → Bool} {line word : String} {columns : Columns}
    (run : IsRun isWord line.toList columns word.toList) : wordIn line columns = some word := by
  obtain ⟨before, after, whole, start, _, _⟩ := run.stands
  have long : 0 < word.toList.length := List.length_pos_iff.mpr run.nonempty
  have stop := run.stop_eq
  have fits : columns.start < columns.stop := by omega
  have width : word.toList.length = columns.stop - columns.start := by omega
  have taken : (line.toList.drop columns.start).take (columns.stop - columns.start) = word.toList := by
    rw [whole, List.append_assoc, List.drop_left' start, List.take_left' width]
  simp [Text.wordIn, taken, width, fits]

variable {isWord : Char → Bool} {chars : List Char} {column : Nat}

theorem lt_of_onWord (onWord : (chars[column]?).any isWord = true) :
    column < chars.length ∧ ∃ char rest, chars.drop column = char :: rest ∧ isWord char = true := by
  cases found : chars[column]? with
  | none => simp [found] at onWord
  | some char =>
    rw [found, Option.any_some] at onWord
    obtain ⟨inside, rfl⟩ := List.getElem?_eq_some_iff.mp found
    exact ⟨inside, _, _, List.drop_eq_getElem_cons inside, onWord⟩

theorem not_of_head?_dropWhile {list : List Char} {char : Char}
    (stopped : (list.dropWhile isWord).head? = some char) : isWord char = false := by
  have refused := List.head?_dropWhile_not isWord list
  rw [stopped] at refused
  exact refused

theorem isRun_of_sides (back forward : List Char) (onWord : forward.takeWhile isWord ≠ []) :
    IsRun isWord (back.reverse ++ forward)
      ⟨back.length - (back.takeWhile isWord).length,
        back.length + (forward.takeWhile isWord).length⟩
      ((back.takeWhile isWord).reverse ++ forward.takeWhile isWord) where
  stands := by
    refine ⟨(back.dropWhile isWord).reverse, forward.dropWhile isWord, ?_, ?_, ?_, ?_⟩
    · calc back.reverse ++ forward
          = (back.takeWhile isWord ++ back.dropWhile isWord).reverse ++
              (forward.takeWhile isWord ++ forward.dropWhile isWord) := by
            rw [List.takeWhile_append_dropWhile, List.takeWhile_append_dropWhile]
        _ = _ := by simp only [List.reverse_append, List.append_assoc]
    · have split := congrArg List.length (List.takeWhile_append_dropWhile (p := isWord) (l := back))
      simp only [List.length_append, List.length_reverse] at split ⊢
      omega
    · intro char final
      rw [List.getLast?_reverse] at final
      exact not_of_head?_dropWhile final
    · intro char next
      exact not_of_head?_dropWhile next
  stop_eq := by
    have shorter := (List.takeWhile_prefix isWord (l := back)).length_le
    simp only [List.length_append, List.length_reverse]
    omega
  nonempty := by simp [onWord]
  words := by
    intro char member
    rcases List.mem_append.mp member with before | after
    · exact List.mem_takeWhile_imp (List.mem_reverse.mp before)
    · exact List.mem_takeWhile_imp after

theorem isRun_runAround (onWord : (chars[column]?).any isWord = true) :
    ∃ word, IsRun isWord chars (runAround isWord chars column) word ∧
      (runAround isWord chars column).start ≤ column ∧
      column < (runAround isWord chars column).stop := by
  obtain ⟨inside, first, rest, ahead, isFirst⟩ := lt_of_onWord onWord
  have taken : (chars.drop column).takeWhile isWord ≠ [] := by simp [ahead, isFirst]
  have run := isRun_of_sides (chars.take column).reverse (chars.drop column) taken
  have long : 0 < ((chars.drop column).takeWhile isWord).length := List.length_pos_iff.mpr taken
  simp only [List.reverse_reverse, List.take_append_drop, List.length_reverse, List.length_take,
    Nat.min_eq_left (Nat.le_of_lt inside)] at run
  refine ⟨_, run, Nat.sub_le .., ?_⟩
  simp only [runAround]
  omega

theorem anchorColumn_eq_some {anchor : Nat}
    (anchored : anchorColumn isWord chars column = some anchor) :
    (chars[anchor]?).any isWord = true ∧ anchor ≤ column ∧ column ≤ anchor + 1 := by
  simp only [anchorColumn] at anchored
  split at anchored
  · rename_i here
    cases anchored
    exact ⟨here, Nat.le_refl _, Nat.le_succ _⟩
  · split at anchored
    · rename_i justPast
      obtain ⟨positive, before⟩ := (Bool.and_eq_true ..).mp justPast
      have positive := of_decide_eq_true positive
      cases anchored
      exact ⟨before, by omega, by omega⟩
    · cases anchored

theorem wordAround_eq_touching (line : String) : wordAround line = touching isWordChar line := rfl

/-- The columns that a column touches are a run, which reaches up to the column at least. -/
theorem isRun_of_touching {line : String} {columns : Columns}
    (found : touching isWord line column = some columns) :
    ∃ word : String, IsRun isWord line.toList columns word.toList ∧ columns.start ≤ column ∧
      column ≤ columns.stop := by
  obtain ⟨anchor, anchored, rfl⟩ := Option.map_eq_some_iff.mp found
  obtain ⟨onWord, after, before⟩ := anchorColumn_eq_some anchored
  obtain ⟨word, run, start, stop⟩ := isRun_runAround onWord
  exact ⟨String.ofList word, by rwa [String.toList_ofList], by omega, by omega⟩

end RulesAssist.Text
