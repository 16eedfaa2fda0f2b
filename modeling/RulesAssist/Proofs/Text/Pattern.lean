import Mathlib
import RulesAssist.Text.Word

/-! The word before the cursor is what a search for a pattern finds.

A pattern can match at one place in several ways, which are listed in the order in which they are tried: a
repetition takes as many characters as it can at first, and gives them back one by one. A search takes the
first way at the first place that has one. Here the order does not matter. The characters of a word are
neither blanks nor openers, so that a text ends in at most one way in an opener, a word and blanks.
-/

set_option autoImplicit false

namespace RulesAssist.Text

inductive Pattern where
  | one (kind : Char → Bool)
  | repeated (kind : Char → Bool)
  | followed (first next : Pattern)
  | kept (inner : Pattern)
  | ending

/-- The characters that a pattern has taken, the part of them that is kept, and those that are left. -/
structure Way where
  taken : List Char
  kept : Option (List Char)
  rest : List Char
  deriving DecidableEq, Repr

namespace Pattern

/-- The ways to cut a text behind characters of a kind, the longest first. -/
def cuts (kind : Char → Bool) : List Char → List (List Char × List Char)
  | [] => [([], [])]
  | char :: rest =>
    (if kind char then (cuts kind rest).map fun cut => (char :: cut.1, cut.2) else []) ++
      -- To take nothing is always possible, and tried last.
      [([], char :: rest)]

/-- The ways in which a text can start with the pattern, in the order in which they are tried. -/
def ways : Pattern → List Char → List Way
  | one _, [] => []
  | one kind, char :: rest => if kind char then [⟨[char], none, rest⟩] else []
  | repeated kind, text => (cuts kind text).map fun cut => ⟨cut.1, none, cut.2⟩
  | followed first next, text =>
    (first.ways text).flatMap fun before =>
      (next.ways before.rest).map fun after =>
        ⟨before.taken ++ after.taken, after.kept <|> before.kept, after.rest⟩
  | kept inner, text => (inner.ways text).map fun way => { way with kept := some way.taken }
  | ending, text => if text.isEmpty then [⟨[], none, []⟩] else []

def atLeastOne (kind : Char → Bool) : Pattern :=
  .followed (.one kind) (.repeated kind)

def search (pattern : Pattern) (text : List Char) : Option Way :=
  (text.tails.flatMap pattern.ways).head?

end Pattern

/-- An opener, a word that is kept, and blanks up to the end. -/
def wordAtEnd : Pattern :=
  .followed (.one isOpener) <|
    .followed (.kept (.atLeastOne isChainCharacter)) <|
      .followed (.repeated isBlank) .ending

/-- The end of a text from an opener on, and what stands before it. -/
structure Ending where
  before : List Char
  opener : Char
  word : List Char
  blanks : List Char

/-- The text ends like that. The opener is one character, and blanks may be missing. -/
structure Ending.Of (text : List Char) (ending : Ending) : Prop where
  whole : text = ending.before ++ ending.opener :: (ending.word ++ ending.blanks)
  opener : isBlank ending.opener = true ∨ ending.opener = '(' ∨ ending.opener = '['
  nonempty : ending.word ≠ []
  word : ∀ char ∈ ending.word, ('A' ≤ char ∧ char ≤ 'Z') ∨ ('a' ≤ char ∧ char ≤ 'z') ∨
    ('0' ≤ char ∧ char ≤ '9') ∨ char = '_' ∨ char = '.'
  blanks : ∀ char ∈ ending.blanks, isBlank char = true

variable {char : Char}

theorem isChainCharacter_iff :
    isChainCharacter char = true ↔ ('A' ≤ char ∧ char ≤ 'Z') ∨ ('a' ≤ char ∧ char ≤ 'z') ∨
      ('0' ≤ char ∧ char ≤ '9') ∨ char = '_' ∨ char = '.' := by
  simp only [isChainCharacter, Char.isAlphanum, Char.isAlpha, Char.isUpper, Char.isLower, Char.isDigit,
    Bool.or_eq_true, Bool.and_eq_true, decide_eq_true_eq, beq_iff_eq, ge_iff_le, or_assoc]
  rfl

theorem isOpener_iff : isOpener char = true ↔ isBlank char = true ∨ char = '(' ∨ char = '[' := by
  simp only [isOpener, Bool.or_eq_true, beq_iff_eq, or_assoc]

theorem not_isBlank_of_isChainCharacter (chain : isChainCharacter char = true) :
    isBlank char = false := by
  have bounds : '.'.toNat ≤ char.toNat ∧ char.toNat ≤ 'z'.toNat := by
    rcases isChainCharacter_iff.mp chain with
      ⟨low, high⟩ | ⟨low, high⟩ | ⟨low, high⟩ | rfl | rfl
    · exact ⟨Nat.le_trans (by decide) low, Nat.le_trans high (by decide)⟩
    · exact ⟨Nat.le_trans (by decide) low, high⟩
    · exact ⟨Nat.le_trans (by decide) low, Nat.le_trans high (by decide)⟩
    · decide
    · decide
  -- From the dot up to the last letter no range of blanks comes by.
  have dot : '.'.toNat = 0x2E := rfl
  have z : 'z'.toNat = 0x7A := rfl
  have outside : ∀ range ∈ blankRanges, ¬ (range.1 ≤ char.toNat ∧ char.toNat ≤ range.2) := by
    simp only [blankRanges, List.forall_mem_cons]
    refine ⟨?_, ?_, ?_, ?_, ?_, ?_, ?_, ?_, ?_, ?_, nofun⟩ <;> omega
  simpa [isBlank] using outside

theorem not_isChainCharacter_of_isOpener (opener : isOpener char = true) :
    isChainCharacter char = false := by
  cases chain : isChainCharacter char with
  | false => rfl
  | true =>
    rcases isOpener_iff.mp opener with blank | rfl | rfl
    · rw [not_isBlank_of_isChainCharacter chain] at blank
      cases blank
    · cases chain
    · cases chain

theorem takeWhile_stopped {kind : Char → Bool} {front back : List Char}
    (passed : ∀ char ∈ front, kind char = true) (stopped : kind char = false) :
    (front ++ char :: back).takeWhile kind = front := by
  rw [List.takeWhile_append_of_pos passed, List.takeWhile_cons_of_neg (by simp [stopped]),
    List.append_nil]

theorem dropWhile_stopped {kind : Char → Bool} {front back : List Char}
    (passed : ∀ char ∈ front, kind char = true) (stopped : kind char = false) :
    (front ++ char :: back).dropWhile kind = char :: back := by
  rw [List.dropWhile_append_of_pos passed, List.dropWhile_cons_of_neg (by simp [stopped])]

namespace Ending.Of

variable {text : List Char} {ending other : Ending}

theorem isChainCharacter (of : ending.Of text) : ∀ char ∈ ending.word, isChainCharacter char = true :=
  fun char member => isChainCharacter_iff.mpr (of.word char member)

theorem span_blanks (of : ending.Of text) :
    text.reverse.takeWhile isBlank = ending.blanks.reverse ∧
      text.reverse.dropWhile isBlank =
        ending.word.reverse ++ ending.opener :: ending.before.reverse := by
  obtain ⟨last, others, split⟩ :=
    List.exists_cons_of_ne_nil (mt List.reverse_eq_nil_iff.mp of.nonempty)
  have final : last ∈ ending.word := by
    rw [← List.mem_reverse, split]
    exact List.mem_cons_self ..
  have stopped := not_isBlank_of_isChainCharacter (of.isChainCharacter last final)
  have passed : ∀ char ∈ ending.blanks.reverse, isBlank char = true :=
    fun char member => of.blanks char (List.mem_reverse.mp member)
  have turned : text.reverse = ending.blanks.reverse ++
      last :: (others ++ ending.opener :: ending.before.reverse) := by
    rw [of.whole]
    simp [split]
  rw [turned, split]
  exact ⟨takeWhile_stopped passed stopped, dropWhile_stopped passed stopped⟩

theorem span_word (of : ending.Of text) :
    (text.reverse.dropWhile isBlank).takeWhile Text.isChainCharacter = ending.word.reverse ∧
      (text.reverse.dropWhile isBlank).dropWhile Text.isChainCharacter =
        ending.opener :: ending.before.reverse := by
  have stopped := not_isChainCharacter_of_isOpener (isOpener_iff.mpr of.opener)
  have passed : ∀ char ∈ ending.word.reverse, Text.isChainCharacter char = true :=
    fun char member => of.isChainCharacter char (List.mem_reverse.mp member)
  rw [of.span_blanks.2]
  exact ⟨takeWhile_stopped passed stopped, dropWhile_stopped passed stopped⟩

theorem behind (of : ending.Of text) (earlier : List Char) :
    Ending.Of (earlier ++ text) { ending with before := earlier ++ ending.before } where
  whole := by rw [of.whole, List.append_assoc]
  opener := of.opener
  nonempty := of.nonempty
  word := of.word
  blanks := of.blanks

theorem alone (of : ending.Of text) :
    Ending.Of (ending.opener :: (ending.word ++ ending.blanks)) { ending with before := [] } where
  whole := rfl
  opener := of.opener
  nonempty := of.nonempty
  word := of.word
  blanks := of.blanks

theorem unique (one : ending.Of text) (two : other.Of text) : ending = other := by
  have blanks := one.span_blanks.1.symm.trans two.span_blanks.1
  have word := one.span_word.1.symm.trans two.span_word.1
  have opener := one.span_word.2.symm.trans two.span_word.2
  rw [List.cons.injEq, List.reverse_inj] at opener
  rw [List.reverse_inj] at blanks word
  obtain ⟨before, opener', word', blanks'⟩ := ending
  dsimp only at blanks word opener
  obtain ⟨same, before⟩ := opener
  subst same before word blanks
  rfl

end Ending.Of

theorem wordBefore_of_ending {text : String} {ending : Ending} (of : ending.Of text.toList) :
    wordBefore text = some (String.ofList ending.word) := by
  have opener := isOpener_iff.mpr of.opener
  simp only [wordBefore, of.span_word.1, of.span_word.2, opener, List.reverse_reverse]
  simp [of.nonempty]

theorem exists_ending {text word : String} (found : wordBefore text = some word) :
    ∃ ending : Ending, ending.Of text.toList ∧ ending.word = word.toList := by
  simp only [wordBefore] at found
  split at found
  · cases found
  · rename_i opener earlier stopped
    rw [Option.ite_none_right_eq_some, Bool.and_eq_true, Bool.not_eq_true', Option.some.injEq] at found
    obtain ⟨⟨isOpener, nonempty⟩, rfl⟩ := found
    -- What was passed from the end and where it stopped make up the text.
    have turned : text.toList.reverse = text.toList.reverse.takeWhile isBlank ++
        ((text.toList.reverse.dropWhile isBlank).takeWhile isChainCharacter ++ opener :: earlier) := by
      rw [← stopped, List.takeWhile_append_dropWhile, List.takeWhile_append_dropWhile]
    refine ⟨⟨earlier.reverse, opener,
      ((text.toList.reverse.dropWhile isBlank).takeWhile isChainCharacter).reverse,
      (text.toList.reverse.takeWhile isBlank).reverse⟩, ⟨?_, ?_, ?_, ?_, ?_⟩, by simp⟩
    · have whole := congrArg List.reverse turned
      simp only [List.reverse_reverse, List.reverse_append, List.reverse_cons, List.append_assoc,
        List.singleton_append] at whole
      exact whole
    · exact isOpener_iff.mp isOpener
    · simpa using nonempty
    · intro char member
      exact isChainCharacter_iff.mp (List.mem_takeWhile_imp (List.mem_reverse.mp member))
    · intro char member
      exact List.mem_takeWhile_imp (List.mem_reverse.mp member)

namespace Pattern

variable {kind : Char → Bool} {text : List Char} {way : Way}

theorem mem_cuts_cons {first : Char} {rest front back : List Char} :
    (front, back) ∈ cuts kind (first :: rest) ↔ front = [] ∧ back = first :: rest ∨
      ∃ others, front = first :: others ∧ kind first = true ∧ (others, back) ∈ cuts kind rest := by
  cases passes : kind first with
  | false => simp [cuts, passes]
  | true =>
    simp only [cuts, passes, if_true, List.mem_append, List.mem_map, Prod.exists, Prod.mk.injEq,
      List.mem_singleton, true_and]
    constructor
    · rintro (⟨others, _, cut, rfl, rfl⟩ | whole)
      · exact .inr ⟨others, rfl, cut⟩
      · exact .inl whole
    · rintro (whole | ⟨others, rfl, cut⟩)
      · exact .inr whole
      · exact .inl ⟨others, back, cut, rfl, rfl⟩

theorem mem_cuts {front back : List Char} :
    (front, back) ∈ cuts kind text ↔ text = front ++ back ∧ ∀ char ∈ front, kind char = true := by
  induction text generalizing front with
  | nil => cases front <;> cases back <;> simp [cuts]
  | cons first rest ih =>
    rw [mem_cuts_cons]
    cases front with
    | nil => simp [@eq_comm _ back]
    | cons char others =>
      constructor
      · rintro (⟨empty, -⟩ | ⟨_, same, passed, cut⟩)
        · cases empty
        · cases same
          obtain ⟨rfl, others⟩ := ih.mp cut
          exact ⟨rfl, List.forall_mem_cons.mpr ⟨passed, others⟩⟩
      · rintro ⟨whole, passed⟩
        obtain ⟨rfl, rfl⟩ := List.cons.inj whole
        obtain ⟨here, others⟩ := List.forall_mem_cons.mp passed
        exact .inr ⟨_, rfl, here, ih.mpr ⟨rfl, others⟩⟩

theorem mem_ways_one : way ∈ (one kind).ways text ↔
    ∃ char rest, text = char :: rest ∧ kind char = true ∧ way = ⟨[char], none, rest⟩ := by
  cases text <;> simp [ways, and_assoc]

theorem mem_ways_repeated : way ∈ (repeated kind).ways text ↔
    ∃ front back, text = front ++ back ∧ (∀ char ∈ front, kind char = true) ∧
      way = ⟨front, none, back⟩ := by
  simp only [ways, List.mem_map, Prod.exists, mem_cuts, and_assoc, @eq_comm _ _ way]

theorem mem_ways_followed {first next : Pattern} : way ∈ (followed first next).ways text ↔
    ∃ before ∈ first.ways text, ∃ after ∈ next.ways before.rest,
      way = ⟨before.taken ++ after.taken, after.kept <|> before.kept, after.rest⟩ := by
  simp [ways, eq_comm]

theorem mem_ways_atLeastOne : way ∈ (atLeastOne kind).ways text ↔
    ∃ front back, text = front ++ back ∧ front ≠ [] ∧ (∀ char ∈ front, kind char = true) ∧
      way = ⟨front, none, back⟩ := by
  simp only [atLeastOne, mem_ways_followed, mem_ways_one, mem_ways_repeated]
  constructor
  · rintro ⟨_, ⟨first, _, rfl, isFirst, rfl⟩, _, ⟨others, back, rfl, areOthers, rfl⟩, rfl⟩
    have passed : ∀ char ∈ first :: others, kind char = true :=
      List.forall_mem_cons.mpr ⟨isFirst, areOthers⟩
    exact ⟨first :: others, back, rfl, List.cons_ne_nil _ _, passed, rfl⟩
  · rintro ⟨front, back, rfl, nonempty, passed, rfl⟩
    obtain ⟨first, others, rfl⟩ := List.exists_cons_of_ne_nil nonempty
    obtain ⟨isFirst, areOthers⟩ := List.forall_mem_cons.mp passed
    exact ⟨_, ⟨first, _, rfl, isFirst, rfl⟩, _, ⟨others, back, rfl, areOthers, rfl⟩, rfl⟩

theorem mem_ways_kept {inner : Pattern} : way ∈ (kept inner).ways text ↔
    ∃ found ∈ inner.ways text, way = ⟨found.taken, some found.taken, found.rest⟩ := by
  simp [ways, eq_comm]

theorem mem_ways_ending : way ∈ ending.ways text ↔ text = [] ∧ way = ⟨[], none, []⟩ := by
  simp [ways]

theorem mem_ways_repeated_ending : way ∈ (followed (repeated kind) ending).ways text ↔
    (∀ char ∈ text, kind char = true) ∧ way = ⟨text, none, []⟩ := by
  simp only [mem_ways_followed, mem_ways_repeated, mem_ways_ending]
  constructor
  · rintro ⟨_, ⟨front, _, rfl, passed, rfl⟩, _, ⟨rfl, rfl⟩, rfl⟩
    simpa using passed
  · rintro ⟨passed, rfl⟩
    exact ⟨_, ⟨text, [], by simp, passed, rfl⟩, _, ⟨rfl, rfl⟩, by simp⟩

theorem search_eq_none_iff {pattern : Pattern} :
    pattern.search text = none ↔ ∀ tail, tail <:+ text → pattern.ways tail = [] := by
  simp [search, List.flatMap_eq_nil_iff]

theorem mem_ways_of_search {pattern : Pattern} (found : pattern.search text = some way) :
    ∃ tail, tail <:+ text ∧ way ∈ pattern.ways tail := by
  obtain ⟨tail, listed, member⟩ := List.mem_flatMap.mp (List.mem_of_head? found)
  exact ⟨tail, (List.mem_tails ..).mp listed, member⟩

end Pattern

open Pattern in
theorem mem_ways_wordAtEnd {text : List Char} {way : Way} :
    way ∈ wordAtEnd.ways text ↔
      ∃ ending : Ending, ending.Of text ∧ ending.before = [] ∧ way = ⟨text, some ending.word, []⟩ := by
  rw [wordAtEnd, mem_ways_followed]
  simp only [@mem_ways_followed _ _ (kept _), mem_ways_one, mem_ways_kept, mem_ways_atLeastOne,
    mem_ways_repeated_ending]
  constructor
  · rintro ⟨_, ⟨opener, _, rfl, isOpener, rfl⟩, _, ⟨_, ⟨_, ⟨word, blanks, rfl, nonempty, chain, rfl⟩, rfl⟩,
      _, ⟨areBlanks, rfl⟩, rfl⟩, rfl⟩
    exact ⟨⟨[], opener, word, blanks⟩, {
      whole := rfl
      opener := isOpener_iff.mp isOpener
      nonempty := nonempty
      word := fun char member => isChainCharacter_iff.mp (chain char member)
      blanks := areBlanks }, rfl, rfl⟩
  · rintro ⟨⟨_, opener, word, blanks⟩, of, rfl, rfl⟩
    refine ⟨_, ⟨opener, word ++ blanks, of.whole, isOpener_iff.mpr of.opener, rfl⟩,
      ⟨word ++ blanks, some word, []⟩, ⟨⟨word, some word, blanks⟩, ?_, ⟨blanks, none, []⟩, ?_, rfl⟩,
      by simp [of.whole]⟩
    · exact ⟨_, ⟨word, blanks, rfl, of.nonempty, of.isChainCharacter, rfl⟩, rfl⟩
    · exact ⟨of.blanks, rfl⟩

theorem kept_of_mem_ways {text : String} {tail : List Char} {way : Way} (suffix : tail <:+ text.toList)
    (member : way ∈ wordAtEnd.ways tail) : way.kept.map String.ofList = wordBefore text := by
  obtain ⟨earlier, whole⟩ := suffix
  obtain ⟨ending, of, -, rfl⟩ := mem_ways_wordAtEnd.mp member
  have found := of.behind earlier
  rw [whole] at found
  exact (wordBefore_of_ending found).symm

theorem search_wordAtEnd (text : String) :
    ((wordAtEnd.search text.toList).bind (·.kept)).map String.ofList = wordBefore text := by
  cases searched : wordAtEnd.search text.toList with
  | some way =>
    obtain ⟨tail, suffix, member⟩ := Pattern.mem_ways_of_search searched
    exact kept_of_mem_ways suffix member
  | none =>
    cases found : wordBefore text with
    | none => rfl
    | some word =>
      obtain ⟨ending, of, -⟩ := exists_ending found
      -- There would be a way at the place of the opener.
      have way := mem_ways_wordAtEnd.mpr ⟨{ ending with before := [] }, of.alone, rfl, rfl⟩
      rw [Pattern.search_eq_none_iff.mp searched _ ⟨ending.before, of.whole.symm⟩] at way
      cases way

/-- The word before the cursor is that of the one end that the text has in an opener, a word and blanks. The
search for the pattern finds it, and so does every other order of trying the places and the ways. -/
theorem wordBefore_iff (text : String) :
    (∀ word, wordBefore text = some word ↔
      ∃ ending : Ending, ending.Of text.toList ∧ ending.word = word.toList) ∧
    (∀ one other : Ending, one.Of text.toList → other.Of text.toList → one = other) ∧
    ((wordAtEnd.search text.toList).bind (·.kept)).map String.ofList = wordBefore text ∧
    ∀ tail, tail <:+ text.toList → ∀ way ∈ wordAtEnd.ways tail,
      way.kept.map String.ofList = wordBefore text := by
  refine ⟨fun word => ⟨exists_ending, ?_⟩, fun _ _ => Ending.Of.unique, search_wordAtEnd text,
    fun _ suffix _ => kept_of_mem_ways suffix⟩
  rintro ⟨ending, of, word⟩
  rw [wordBefore_of_ending of, word, String.ofList_toList]

/-- A text that starts with an opener, and has blanks on both sides of the word. -/
theorem wordBefore_iff_allow :
    let ending : Ending := ⟨[], ' ', ['a', 'l', 'l', 'o', 'w'], [' ', '\t']⟩
    wordBefore " allow \t" = some "allow" ∧
      (∀ other : Ending, other.Of " allow \t".toList → other = ending) ∧
      ∀ way ∈ wordAtEnd.ways " allow \t".toList, way.kept.map String.ofList = some "allow" := by
  intro ending
  obtain ⟨accepts, unique, -, everyWay⟩ := wordBefore_iff " allow \t"
  have chain : ending.word.all isChainCharacter = true := by decide
  have of : ending.Of " allow \t".toList := {
    whole := by decide
    opener := by decide
    nonempty := by decide
    word := fun char member => isChainCharacter_iff.mp (List.all_eq_true.mp chain char member)
    blanks := List.all_eq_true.mp (by decide) }
  have found := (accepts "allow").mpr ⟨ending, of, by decide⟩
  exact ⟨found, fun other also => unique other ending also of,
    fun way member => (everyWay _ (List.suffix_refl _) way member).trans found⟩

end RulesAssist.Text
