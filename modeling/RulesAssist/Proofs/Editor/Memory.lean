import Mathlib
import RulesAssist.Editor.Query

/-! What is remembered of answers, and what it is worth.

The worth of an answer is what its reader sees of it: lists that were made at different times may have
equal items. An answer that is remembered hides whatever later computations for its question find.
-/

set_option autoImplicit false

namespace RulesAssist.Editor

inductive Content where
  | table (compiled : Option Compiled)
  | type (symbol : Option TypeSymbol)
  | symbol (symbol : Option Symbol)
  | modifiers (symbols : List ModifierSymbol)
  | list (items : Option (List Suggestion))
  | text (text : Option String)

namespace Query

def content : (query : Query) → query.Answer → Content
  | .table, compiled | .recompile, compiled => .table compiled
  | .type _, found => .type found
  | .symbol _, found => .symbol found
  | .modifiers, symbols => .modifiers symbols
  | .members _, suggestions | .keywords _, suggestions => .list (suggestions.map (·.content))
  | .documentation _, text => .text text

def isRemembered : Query → Bool
  | .members _ | .keywords _ | .documentation _ => true
  | _ => false

/-- What the question is answered from a table if nothing is remembered. -/
def answerFrom (query : Query) (compiled : Compiled) : query.Answer :=
  (Memory.empty.known? query).getD (Memory.empty.conclude (some compiled) query).1

def contentFrom (query : Query) (compiled : Compiled) : Content :=
  query.content (query.answerFrom compiled)

end Query

namespace Memory

theorem keepList_of_some {memory : Memory} {topic : Topic} {kept : Suggestions}
    (found : memory.lists.lookup topic = some kept) (items : List Suggestion) :
    memory.keepList topic items = (kept, memory) := by
  simp [keepList, found]

theorem keepText_of_some {memory : Memory} {word : String} {kept : Option String}
    (found : memory.texts.lookup word = some kept) (text : Option String) :
    memory.keepText word text = (kept, memory) := by
  simp [keepText, found]

theorem keepText_of_none {memory : Memory} {word : String}
    (missing : memory.texts.lookup word = none) (text : Option String) :
    (memory.keepText word text).1 = text := by
  simp [keepText, missing]

theorem content_keepList {memory : Memory} {topic : Topic}
    (missing : memory.lists.lookup topic = none) (items : List Suggestion) :
    (memory.keepList topic items).1.map (·.content) = if items.isEmpty then none else some items := by
  simp only [keepList, missing]
  split <;> rfl

theorem lookup_keepList (memory : Memory) (topic wanted : Topic) (items : List Suggestion) :
    (memory.keepList topic items).2.lists.lookup wanted =
      if wanted = topic then some (memory.keepList topic items).1 else memory.lists.lookup wanted := by
  cases found : memory.lists.lookup topic with
  | some kept =>
    rw [keepList_of_some found]
    split
    · rename_i same
      rw [same, found]
    · rfl
  | none =>
    simp only [keepList, found]
    exact Keyed.lookup_insert ..

theorem texts_keepList (memory : Memory) (topic : Topic) (items : List Suggestion) :
    (memory.keepList topic items).2.texts = memory.texts := by
  unfold keepList
  split <;> rfl

theorem lookup_keepText (memory : Memory) (word wanted : String) (text : Option String) :
    (memory.keepText word text).2.texts.lookup wanted =
      if wanted = word then some (memory.keepText word text).1 else memory.texts.lookup wanted := by
  cases found : memory.texts.lookup word with
  | some kept =>
    rw [keepText_of_some found]
    split
    · rename_i same
      rw [same, found]
    · rfl
  | none =>
    simp only [keepText, found]
    exact Keyed.lookup_insert ..

theorem lists_keepText (memory : Memory) (word : String) (text : Option String) :
    (memory.keepText word text).2.lists = memory.lists := by
  unfold keepText
  split <;> rfl

theorem conclude_none (memory : Memory) {query : Query} (keeps : query ≠ .recompile) :
    (memory.conclude none query).2 = memory := by
  cases query with
  | recompile => exact absurd rfl keeps
  | _ => rfl

theorem known?_congr {memory other : Memory} (query : Query)
    (lists : ∀ typeName, query = .members typeName →
      memory.lists.lookup (.members typeName) = other.lists.lookup (.members typeName))
    (keywords : ∀ directive, query = .keywords directive →
      memory.lists.lookup (.keywords directive) = other.lists.lookup (.keywords directive))
    (texts : ∀ word, query = .documentation word →
      memory.texts.lookup word = other.texts.lookup word) :
    memory.known? query = other.known? query := by
  cases query with
  | members typeName => exact lists typeName rfl
  | keywords directive =>
    exact congrArg (fun found => if directive = allowDirective then found else some none)
      (keywords directive rfl)
  | documentation word =>
    exact congrArg (fun found => if word.isEmpty then some none else found) (texts word rfl)
  | _ => rfl

theorem known?_conclude_of_ne (memory : Memory) (compiled : Option Compiled) {query wanted : Query}
    (keeps : query ≠ .recompile) (apart : wanted ≠ query) :
    (memory.conclude compiled query).2.known? wanted = memory.known? wanted := by
  cases compiled with
  | none => rw [conclude_none memory keeps]
  | some table =>
    cases query with
    | recompile => exact absurd rfl keeps
    | members typeName =>
      refine known?_congr wanted ?_ ?_ ?_
      · rintro other rfl
        exact (lookup_keepList ..).trans (if_neg (by simpa using apart))
      · rintro directive rfl
        exact (lookup_keepList ..).trans (if_neg (by simp))
      · rintro word rfl
        exact congrArg (List.lookup word) (texts_keepList ..)
    | keywords directive =>
      refine known?_congr wanted ?_ ?_ ?_
      · rintro typeName rfl
        exact (lookup_keepList ..).trans (if_neg (by simp))
      · rintro other rfl
        exact (lookup_keepList ..).trans (if_neg (by simpa using apart))
      · rintro word rfl
        exact congrArg (List.lookup word) (texts_keepList ..)
    | documentation word =>
      refine known?_congr wanted ?_ ?_ ?_
      · rintro typeName rfl
        exact congrArg (List.lookup _) (lists_keepText ..)
      · rintro directive rfl
        exact congrArg (List.lookup _) (lists_keepText ..)
      · rintro other rfl
        exact (lookup_keepText ..).trans (if_neg (by simpa using apart))
    | _ => rfl

theorem known?_conclude_of_some {memory : Memory} (compiled : Option Compiled) {query : Query}
    {answer : query.Answer} (keeps : query ≠ .recompile) (recalled : memory.known? query = some answer) :
    (memory.conclude compiled query).2.known? query = some answer := by
  cases compiled with
  | none =>
    rw [conclude_none memory keeps]
    exact recalled
  | some table =>
    cases query with
    | recompile => exact absurd rfl keeps
    | members typeName =>
      simp only [conclude, keepList_of_some recalled]
      exact recalled
    | keywords directive =>
      simp only [known?] at recalled ⊢
      split at recalled
      · rename_i allowed
        rw [if_pos allowed]
        simp only [conclude, keepList_of_some recalled]
        exact recalled
      · rename_i other
        rw [if_neg other]
        exact recalled
    | documentation word =>
      simp only [known?] at recalled ⊢
      split at recalled
      · rename_i empty
        rw [if_pos empty]
        exact recalled
      · rename_i named
        rw [if_neg named]
        simp only [conclude, keepText_of_some recalled]
        exact recalled
    | _ => exact recalled

/-- What a table says about a question that nothing is remembered of is what it always says. -/
theorem content_conclude {memory : Memory} {query : Query} (missing : memory.known? query = none)
    (compiled : Compiled) :
    query.content (memory.conclude (some compiled) query).1 = query.contentFrom compiled := by
  unfold Query.contentFrom Query.answerFrom
  cases query with
  | members typeName =>
    have blank : empty.lists.lookup (.members typeName) = none := rfl
    exact congrArg Content.list ((content_keepList missing _).trans (content_keepList blank _).symm)
  | keywords directive =>
    simp only [known?] at missing ⊢
    split at missing
    · rename_i allowed
      rw [if_pos allowed]
      have blank : empty.lists.lookup (.keywords directive) = none := rfl
      exact congrArg Content.list ((content_keepList missing _).trans (content_keepList blank _).symm)
    · cases missing
  | documentation word =>
    simp only [known?] at missing ⊢
    split at missing
    · cases missing
    · rename_i named
      rw [if_neg named]
      exact congrArg Content.text (keepText_of_none missing _)
  | type name =>
    simp only [known?] at missing ⊢
    split at missing
    · cases missing
    · rename_i named
      rw [if_neg named]
      rfl
  | symbol name =>
    simp only [known?] at missing ⊢
    split at missing
    · cases missing
    · rename_i named
      rw [if_neg named]
      rfl
  | _ => rfl

theorem known?_conclude_of_none {memory : Memory} {query : Query}
    (remembered : query.isRemembered = true) (missing : memory.known? query = none)
    (compiled : Compiled) :
    (memory.conclude (some compiled) query).2.known? query =
      some (memory.conclude (some compiled) query).1 := by
  cases query with
  | members typeName => exact (lookup_keepList ..).trans (if_pos rfl)
  | keywords directive =>
    simp only [known?] at missing ⊢
    split at missing
    · rename_i allowed
      rw [if_pos allowed]
      exact (lookup_keepList ..).trans (if_pos rfl)
    · cases missing
  | documentation word =>
    simp only [known?] at missing ⊢
    split at missing
    · cases missing
    · rename_i named
      rw [if_neg named]
      exact (lookup_keepText ..).trans (if_pos rfl)
  | _ => cases remembered

end Memory

end RulesAssist.Editor
