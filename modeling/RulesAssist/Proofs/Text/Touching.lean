import Mathlib
import RulesAssist.Proofs.Text.Word

/-! Every column that touches a word selects the same columns.

Word characters make up whole runs. Two runs with a common column are the same: where one of them would start
earlier, the other would stop at a word character. A column inside a run is on a word character of it, and so
is the column before the one just past the run. So all of them lead to that run.
-/

set_option autoImplicit false

namespace RulesAssist.Text

/-- A nonempty range of columns in the line with word characters on all of them, and none on the next
columns to the left and to the right. -/
structure IsMaximal (isWord : Char → Bool) (chars : List Char) (columns : Columns) : Prop where
  nonempty : columns.start < columns.stop
  inside : columns.stop ≤ chars.length
  words : ∀ index, columns.start ≤ index → index < columns.stop → (chars[index]?).any isWord = true
  left : 0 < columns.start → (chars[columns.start - 1]?).any isWord = false
  right : (chars[columns.stop]?).any isWord = false

variable {isWord : Char → Bool} {chars : List Char} {line : String} {column : Nat} {columns other : Columns}

theorem IsRun.isMaximal {word : List Char} (run : IsRun isWord chars columns word) :
    IsMaximal isWord chars columns := by
  obtain ⟨before, after, rfl, start, left, right⟩ := run.stands
  have stop := run.stop_eq
  have long := List.length_pos_iff.mpr run.nonempty
  refine ⟨by omega, by simp; omega, ?_, ?_, ?_⟩
  · intro index low high
    have inside : index - before.length < word.length := by omega
    rw [List.append_assoc, List.getElem?_append_right (by omega), List.getElem?_append_left inside,
      List.getElem?_eq_getElem inside, Option.any_some]
    exact run.words _ (List.getElem_mem inside)
  · intro positive
    rw [List.append_assoc, List.getElem?_append_left (by omega), ← start, ← List.getLast?_eq_getElem?]
    cases final : before.getLast? with
    | none => rfl
    | some char => exact left char final
  · rw [List.getElem?_append_right (by simp; omega), List.length_append, start, ← stop, Nat.sub_self,
      ← List.head?_eq_getElem?]
    cases next : after.head? with
    | none => rfl
    | some char => exact right char next

namespace IsMaximal

variable {index : Nat}

theorem start_le (maximal : IsMaximal isWord chars columns) (also : IsMaximal isWord chars other)
    (before : index < columns.stop) (behind : other.start ≤ index) : other.start ≤ columns.start := by
  by_contra later
  -- The column before the later start lies in the other run.
  have word := maximal.words (other.start - 1) (by omega) (by omega)
  rw [also.left (by omega)] at word
  cases word

theorem stop_le (maximal : IsMaximal isWord chars columns) (also : IsMaximal isWord chars other)
    (before : index < columns.stop) (behind : other.start ≤ index) : other.stop ≤ columns.stop := by
  by_contra longer
  -- The column at which the shorter run stops lies in the other one.
  have word := also.words columns.stop (by omega) (by omega)
  rw [maximal.right] at word
  cases word

theorem eq_of_common (maximal : IsMaximal isWord chars columns) (also : IsMaximal isWord chars other)
    (here : columns.start ≤ index ∧ index < columns.stop)
    (there : other.start ≤ index ∧ index < other.stop) : columns = other := by
  have start := Nat.le_antisymm (also.start_le maximal there.2 here.1) (maximal.start_le also here.2 there.1)
  have stop := Nat.le_antisymm (also.stop_le maximal there.2 here.1) (maximal.stop_le also here.2 there.1)
  cases columns
  cases other
  exact congrArg₂ Columns.mk start stop

theorem anchorColumn (maximal : IsMaximal isWord chars columns) (low : columns.start ≤ column)
    (high : column ≤ columns.stop) :
    ∃ anchor, anchorColumn isWord chars column = some anchor ∧
      columns.start ≤ anchor ∧ anchor < columns.stop := by
  rcases Nat.lt_or_eq_of_le high with within | rfl
  · exact ⟨column, by simp [Text.anchorColumn, maximal.words column low within], low, within⟩
  · have filled := maximal.nonempty
    have last := maximal.words (columns.stop - 1) (by omega) (by omega)
    have positive : 0 < columns.stop := by omega
    exact ⟨columns.stop - 1, by simp [Text.anchorColumn, maximal.right, last, positive], by omega, by omega⟩

theorem touching_eq (maximal : IsMaximal isWord line.toList columns) (low : columns.start ≤ column)
    (high : column ≤ columns.stop) : touching isWord line column = some columns := by
  obtain ⟨anchor, anchored, start, stop⟩ := maximal.anchorColumn low high
  obtain ⟨word, run, around⟩ := isRun_runAround (maximal.words anchor start stop)
  rw [touching, anchored, Option.map_some, run.isMaximal.eq_of_common maximal around ⟨start, stop⟩]

theorem length_word (maximal : IsMaximal isWord chars columns) :
    ((chars.drop columns.start).take (columns.stop - columns.start)).length =
      columns.stop - columns.start := by
  have inside := maximal.inside
  simp only [List.length_take, List.length_drop]
  omega

theorem wordIn_eq (maximal : IsMaximal isWord line.toList columns) :
    wordIn line columns =
      some (String.ofList ((line.toList.drop columns.start).take (columns.stop - columns.start))) := by
  simp [wordIn, maximal.nonempty, maximal.length_word]

end IsMaximal

theorem anchorColumn_eq_none : anchorColumn isWord chars column = none ↔
    (chars[column]?).any isWord = false ∧ (0 < column → (chars[column - 1]?).any isWord = false) := by
  cases here : (chars[column]?).any isWord <;> simp [anchorColumn, here]

theorem isMaximal_of_touching (found : touching isWord line column = some columns) :
    IsMaximal isWord line.toList columns ∧ columns.start ≤ column ∧ column ≤ columns.stop := by
  obtain ⟨word, run, low, high⟩ := isRun_of_touching found
  exact ⟨run.isMaximal, low, high⟩

theorem touching_eq_some_iff : touching isWord line column = some columns ↔
    IsMaximal isWord line.toList columns ∧ columns.start ≤ column ∧ column ≤ columns.stop :=
  ⟨isMaximal_of_touching, fun ⟨maximal, low, high⟩ => maximal.touching_eq low high⟩

/-- Columns are selected exactly if a word character stands at the column or right before it. They are then a
whole run, which every column that touches it selects, and its characters are the word that an editor gets
for them. It does not matter which characters make up words. -/
theorem touching_maximal_stable (isWord : Char → Bool) (line : String) (column : Nat) :
    wordAround line = touching isWordChar line ∧
    (touching isWord line column = none ↔
      (line.toList[column]?).any isWord = false ∧
        (0 < column → (line.toList[column - 1]?).any isWord = false)) ∧
    ∀ columns, touching isWord line column = some columns →
      IsMaximal isWord line.toList columns ∧ columns.start ≤ column ∧ column ≤ columns.stop ∧
      (∃ word, wordIn line columns = some word ∧ word.toList.length = columns.stop - columns.start ∧
        word.toList = (line.toList.drop columns.start).take (columns.stop - columns.start)) ∧
      ∀ other, columns.start ≤ other → other ≤ columns.stop →
        touching isWord line other = some columns := by
  refine ⟨wordAround_eq_touching line, ?_, fun columns found => ?_⟩
  · rw [touching, Option.map_eq_none_iff, anchorColumn_eq_none]
  · obtain ⟨maximal, low, high⟩ := touching_eq_some_iff.mp found
    refine ⟨maximal, low, high, ⟨_, maximal.wordIn_eq, ?_, String.toList_ofList⟩,
      fun other low high => touching_eq_some_iff.mpr ⟨maximal, low, high⟩⟩
    rw [String.toList_ofList, maximal.length_word]

/-- Just past a word with an accent, and then on its characters. -/
theorem touching_maximal_stable_accent :
    touching (· != ' ') "né x" 2 = some ⟨0, 2⟩ ∧ wordIn "né x" ⟨0, 2⟩ = some "né" ∧
      ∀ other ≤ 2, touching (· != ' ') "né x" other = some ⟨0, 2⟩ := by
  have found : touching (· != ' ') "né x" 2 = some ⟨0, 2⟩ := by decide
  obtain ⟨-, -, spec⟩ := touching_maximal_stable (· != ' ') "né x" 2
  obtain ⟨-, -, -, ⟨word, read, -, chars⟩, stable⟩ := spec ⟨0, 2⟩ found
  have same : word = "né" := String.toList_inj.mp (chars.trans (by decide))
  exact ⟨found, same ▸ read, fun other => stable other (Nat.zero_le _)⟩

end RulesAssist.Text
