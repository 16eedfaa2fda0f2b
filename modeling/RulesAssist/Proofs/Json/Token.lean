import Mathlib
import RulesAssist.Json.Token

/-! Where the characters of a JSON text may stand.

Most characters stand nowhere but inside strings, and no control character stands there. So neither of
two neighbours can be read if the first one belongs into a string and the second one is a control character.
-/

set_option autoImplicit false

namespace RulesAssist.Json.Scanner

/-- The character is no part of what stands outside of strings, nor of an escape. -/
def isContent (char : Char) : Bool :=
  !(isGap char || isNumberChar char || char.isLower || char == '"' || (punctuation? char).isSome ||
    (escaped? char).isSome || (hexValue? char).isSome)

variable {scanner next : Scanner} {char : Char}

theorem start_content (tokens : List Token) (content : isContent char = true) :
    start tokens char = none := by
  simp only [isContent, isNumberChar, Bool.not_eq_true', Bool.or_eq_false_iff] at content
  simp_all [start]

theorem text_of_step (content : isContent char = true) (stepped : scanner.step char = some next) :
    ∃ pieces, next.current = .text pieces := by
  have outside (tokens : List Token) : start tokens char = none := start_content tokens content
  simp only [isContent, Bool.not_eq_true', Bool.or_eq_false_iff, Option.isSome_eq_false_iff,
    Option.isNone_iff_eq_none] at content
  obtain ⟨⟨⟨⟨⟨⟨gap, number⟩, lower⟩, quote⟩, punctuation⟩, escape⟩, hex⟩ := content
  have backslash : (char == '\\') = false := by
    apply beq_false_of_ne
    rintro rfl
    cases escape
  have unicode : (char == 'u') = false := by
    apply beq_false_of_ne
    rintro rfl
    cases lower
  unfold step at stepped
  cases current : scanner.current with
  | gap => simp [current, outside] at stepped
  | word letters => simp [current, lower, outside] at stepped
  | number chars => simp [current, number, outside] at stepped
  | text pieces =>
    simp only [current, quote, backslash, Bool.false_eq_true, if_false] at stepped
    split at stepped
    · cases stepped
    · cases stepped
      exact ⟨_, rfl⟩
  | escape pieces => simp [current, unicode, escape] at stepped
  | hex pieces read code => simp [current, hex] at stepped

theorem step_control {pieces : List Piece} (inside : scanner.current = .text pieces)
    (control : char < ' ') : scanner.step char = none := by
  have quote : (char == '"') = false := by
    apply beq_false_of_ne
    rintro rfl
    exact absurd control (by decide)
  have backslash : (char == '\\') = false := by
    apply beq_false_of_ne
    rintro rfl
    exact absurd control (by decide)
  simp [step, inside, quote, backslash, control]

theorem run_content_control {first second : Char} (content : isContent first = true)
    (control : second < ' ') (before after : List Char) (scanner : Scanner) :
    (before ++ [first, second] ++ after).foldlM step scanner = none := by
  rw [List.foldlM_append, List.foldlM_append]
  cases before.foldlM step scanner with
  | none => rfl
  | some reached =>
    cases entered : reached.step first with
    | none => simp [entered]
    | some inside =>
      obtain ⟨pieces, current⟩ := text_of_step content entered
      simp [entered, step_control current control]

end Scanner

/-- In a text that is read as JSON no control character follows a character that belongs into strings. -/
theorem not_infix_of_tokenize {text : String} {tokens : List Token}
    (read : tokenize text = some tokens) {first second : Char}
    (content : Scanner.isContent first = true) (control : second < ' ') :
    ¬ [first, second] <:+: text.toList := by
  rintro ⟨before, after, split⟩
  have refused := Scanner.run_content_control content control before after Scanner.initial
  rw [split] at refused
  simp [tokenize, refused] at read

end RulesAssist.Json
