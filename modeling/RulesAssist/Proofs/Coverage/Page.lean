import RulesAssist.Coverage.Page
import RulesAssist.Proofs.Json.Token

/-! What stands between the two marks of a page is read whole.

A mark that has no border, that is no start which is its end as well, is found right where it was put: it
cannot begin in the text before and end in itself. The second mark starts with a semicolon and a line feed,
which no JSON text has side by side, since a semicolon stands inside strings alone.
-/

set_option autoImplicit false

namespace RulesAssist.Coverage

/-- No part of the mark but the empty one and itself is both a start and an end of it. -/
def Unbordered (mark : List Char) : Prop :=
  ∀ border ∈ mark.tails, border <+: mark → border = [] ∨ border = mark

instance (mark : List Char) : Decidable (Unbordered mark) :=
  inferInstanceAs (Decidable (∀ border ∈ mark.tails, _))

theorem Marker.unbordered (marker : Marker) : Unbordered marker.text.toList := by
  cases marker <;> decide +kernel

theorem Unbordered.not_prefix {mark ending after : List Char} (unbordered : Unbordered mark)
    (nonempty : ending ≠ []) (clear : ¬ mark <:+: ending) : ¬ mark <+: ending ++ (mark ++ after) := by
  intro early
  rcases List.prefix_or_prefix_of_prefix early (List.prefix_append ending _) with inside | beyond
  · exact clear inside.isInfix
  -- The mark goes on after the text, so that its own start is its end.
  · obtain ⟨border, whole⟩ := beyond
    have overlap : border <+: mark ++ after := by
      rw [← List.prefix_append_right_inj ending, whole]
      exact early
    have shorter : border.length ≤ mark.length := by simp [← whole]
    have start := List.prefix_of_prefix_length_le overlap (List.prefix_append mark after) shorter
    have tail : border ∈ mark.tails := (List.mem_tails ..).mpr ⟨ending, whole⟩
    rcases unbordered border tail start with none | all
    · exact clear ⟨[], [], by simp [← whole, none]⟩
    · exact nonempty (List.append_left_eq_self.mp (whole.trans all.symm))

theorem cutAt?_append {mark before after : List Char} (unbordered : Unbordered mark)
    (clear : ¬ mark <:+: before) :
    cutAt? mark (before ++ (mark ++ after)) = some (before, after) := by
  induction before with
  | nil =>
    cases text : mark ++ after with
    | nil =>
      obtain ⟨rfl, rfl⟩ := List.append_eq_nil_iff.mp text
      rfl
    | cons first rest =>
      have here : mark.isPrefixOf (first :: rest) = true := by
        rw [List.isPrefixOf_iff_prefix, ← text]
        exact List.prefix_append mark after
      rw [List.nil_append, cutAt?, if_pos here, ← text, List.drop_left]
  | cons first rest ih =>
    have missed : ¬ mark.isPrefixOf (first :: rest ++ (mark ++ after)) = true := by
      rw [List.isPrefixOf_iff_prefix]
      exact unbordered.not_prefix (List.cons_ne_nil _ _) clear
    have later : ¬ mark <:+: rest := fun inside => clear (inside.trans (List.suffix_cons ..).isInfix)
    rw [List.cons_append] at missed ⊢
    rw [cutAt?, if_neg missed, ih later]
    rfl

namespace Page

theorem clear_of_parse {Result : Type} {reader : Json.Reader Result} {document : String}
    {result : Result} (read : reader.parse document = some result) :
    ¬ Marker.stop.text.toList <:+: document.toList := by
  obtain ⟨tree, parsed, _⟩ := Option.bind_eq_some_iff.mp read
  obtain ⟨tokens, tokenized, _⟩ := Option.bind_eq_some_iff.mp parsed
  have apart : ¬ [';', '\n'] <:+: document.toList :=
    Json.not_infix_of_tokenize tokenized (by decide) (by decide)
  have opening : [';', '\n'] <+: Marker.stop.text.toList := by decide +kernel
  exact fun inside => apart (opening.isInfix.trans inside)

/-- The report of a page is what was put between its marks, whatever stands before and after them. -/
theorem report_between_marks {preamble document suffix : String} {report : Report}
    (unmarked : ¬ Marker.start.text.toList <:+: preamble.toList)
    (read : Report.reader.parse document = some report) :
    Page.payload (preamble ++ Marker.start.text ++ document ++ Marker.stop.text ++ suffix) =
        .ok document ∧
      Page.report (preamble ++ Marker.start.text ++ document ++ Marker.stop.text ++ suffix) =
        .ok report := by
  have payload :
      Page.payload (preamble ++ Marker.start.text ++ document ++ Marker.stop.text ++ suffix) =
        .ok document := by
    simp only [Page.payload, String.toList_append, List.append_assoc,
      cutAt?_append Marker.start.unbordered unmarked,
      cutAt?_append Marker.stop.unbordered (clear_of_parse read), String.ofList_toList]
  refine ⟨payload, ?_⟩
  simp only [Page.report, payload, bind, Except.bind, read]

/-- A report on a file whose name is the second mark, with a semicolon as a key that nobody reads. -/
def markedReport : String :=
  "\x7b\"rules\":[[[\";\\n\\nconst REPORT_LIMIT_SIZE\"]]],\"report\":[],\";\":\";\"\x7d"

theorem parse_markedReport :
    Report.reader.parse markedReport = some ⟨[Marker.stop.text], []⟩ := by cbv

/-- What follows the marks may have them once more. -/
theorem report_between_marks_marked : ¬ Marker.start.text.toList <:+: "// Populated".toList ∧
    Report.reader.parse markedReport = some ⟨[Marker.stop.text], []⟩ ∧
    Page.report ("// Populated" ++ Marker.start.text ++ markedReport ++ Marker.stop.text ++
      (Marker.start.text ++ Marker.stop.text)) = .ok ⟨[Marker.stop.text], []⟩ := by
  have unmarked : ¬ Marker.start.text.toList <:+: "// Populated".toList := by decide +kernel
  exact ⟨unmarked, parse_markedReport, (report_between_marks unmarked parse_markedReport).2⟩

end Page

end RulesAssist.Coverage
