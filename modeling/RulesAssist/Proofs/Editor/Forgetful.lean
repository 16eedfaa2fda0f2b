import RulesAssist.Proofs.Editor.Memory
import RulesAssist.Proofs.Editor.Session

/-! Answering one question after another without remembering anything.

Beside the desk stands one that looks its table up in the cell for every question anew. Both give the same
answers and ask the source equally often: whatever is remembered was answered from the table that the
cell holds, and a cell that holds a table is not filled again unless that is forced.
-/

set_option autoImplicit false

namespace RulesAssist.Editor

open SingleFlight

namespace Query

def needsTable : Query → Bool
  | .type name | .symbol name => !name.isEmpty
  | .keywords directive => decide (directive = allowDirective)
  | .documentation word => !word.isEmpty
  | _ => true

def offered (items : List Suggestion) : Option (List Suggestion) :=
  if items.isEmpty then none else some items

def lookUp (compiled : Option Compiled) : Query → Content
  | .table | .recompile => .table compiled
  | .type name => .type (compiled.bind fun table => table.content.type? name)
  | .symbol name => .symbol (compiled.bind fun table => table.content.find? name)
  | .modifiers => .modifiers ((compiled.map fun table => table.content.accessModifiers).getD [])
  | .members typeName =>
    .list (compiled.bind fun table => offered (Memory.membersIn table.content typeName))
  | .keywords _ =>
    .list (compiled.bind fun table =>
      offered (table.content.accessModifiers.map Suggestion.ofModifier))
  | .documentation word =>
    .text (compiled.bind fun table => (table.content.find? word).map Symbol.about)

end Query

namespace Forgetful

/-- Let one caller come to the cell and stay until it is done. -/
def obtain (source : Source) (callers : Callers Compiled GrammarError) (force : Bool) :
    Option (Except GrammarError Compiled × Callers Compiled GrammarError) :=
  let callers := (callers.set 0 (.created force)).poll (Session.endings source) 0
  match callers.stage? 0 with
  | some (.done outcome) => some (outcome, callers.forget 0)
  | _ => none

/-- Answer from the cell alone. There is no answer if the cell never serves the caller. -/
def ask (source : Source) (callers : Callers Compiled GrammarError) (query : Query) :
    Option (Content × Callers Compiled GrammarError) :=
  if query.needsTable then do
    let (outcome, callers) ← obtain source callers query.force
    return (query.lookUp outcome.toOption, callers)
  else
    some (query.lookUp none, callers)

def askAll (source : Source) : Callers Compiled GrammarError → List Query →
    Option (List Content × Callers Compiled GrammarError)
  | callers, [] => some ([], callers)
  | callers, query :: rest => do
    let (content, callers) ← ask source callers query
    let (contents, callers) ← askAll source callers rest
    return (content :: contents, callers)

end Forgetful

def Desk.askAll (source : Source) : Desk → List Query → List Content × Desk
  | desk, [] => ([], desk)
  | desk, query :: rest =>
    let (answer, _, desk) := desk.ask source query
    let (contents, desk) := askAll source desk rest
    (query.content answer :: contents, desk)

namespace Memory

variable {memory : Memory} {query : Query}

theorem known?_of_unneeded (memory : Memory) (unneeded : query.needsTable = false) :
    ∃ answer, memory.known? query = some answer ∧ query.content answer = query.lookUp none := by
  cases query with
  | type name =>
    have empty : name.isEmpty = true := by simpa [Query.needsTable] using unneeded
    exact ⟨none, if_pos empty, rfl⟩
  | symbol name =>
    have empty : name.isEmpty = true := by simpa [Query.needsTable] using unneeded
    exact ⟨none, if_pos empty, rfl⟩
  | keywords directive =>
    have other : directive ≠ allowDirective := by simpa [Query.needsTable] using unneeded
    exact ⟨none, if_neg other, rfl⟩
  | documentation word =>
    have empty : word.isEmpty = true := by simpa [Query.needsTable] using unneeded
    exact ⟨none, if_pos empty, rfl⟩
  | _ => cases unneeded

theorem needsTable_of_known? (missing : memory.known? query = none) : query.needsTable = true := by
  cases needed : query.needsTable with
  | true => rfl
  | false =>
    obtain ⟨answer, known, _⟩ := known?_of_unneeded memory needed
    rw [missing] at known
    cases known

theorem known?_of_unremembered (needed : query.needsTable = true)
    (passing : query.isRemembered = false) : memory.known? query = none := by
  cases query with
  | type name =>
    have named : ¬ name.isEmpty = true := by simpa [Query.needsTable] using needed
    exact if_neg named
  | symbol name =>
    have named : ¬ name.isEmpty = true := by simpa [Query.needsTable] using needed
    exact if_neg named
  | members _ | keywords _ | documentation _ => cases passing
  | _ => rfl

theorem content_conclude_lookUp (missing : memory.known? query = none)
    (compiled : Option Compiled) :
    query.content (memory.conclude compiled query).1 = query.lookUp compiled := by
  cases compiled with
  | none => cases query <;> rfl
  | some table =>
    cases query with
    | members typeName => exact congrArg Content.list (content_keepList missing _)
    | keywords directive =>
      simp only [known?] at missing
      split at missing
      · exact congrArg Content.list (content_keepList missing _)
      · cases missing
    | documentation word =>
      simp only [known?] at missing
      split at missing
      · cases missing
      · exact congrArg Content.text (keepText_of_none missing _)
    | _ => rfl

/-- All that is remembered is what the table that is held says. -/
def Backed (memory : Memory) (held : Option Compiled) : Prop :=
  ∀ query answer, query.needsTable = true → memory.known? query = some answer →
    ∃ table, held = some table ∧ query.content answer = query.lookUp (some table)

theorem known?_clear (memory : Memory) (needed : query.needsTable = true) :
    memory.clear.known? query = none := by
  cases remembered : query.isRemembered with
  | false => exact known?_of_unremembered needed remembered
  | true =>
    cases query with
    | members typeName => rfl
    | keywords directive =>
      have allowed : directive = allowDirective := by simpa [Query.needsTable] using needed
      exact if_pos allowed
    | documentation word =>
      have named : ¬ word.isEmpty = true := by simpa [Query.needsTable] using needed
      exact if_neg named
    | _ => cases remembered

theorem backed_clear (memory : Memory) (held : Option Compiled) : memory.clear.Backed held := by
  intro query answer needed known
  rw [known?_clear memory needed] at known
  cases known

theorem Backed.conclude {before after : Option Compiled} (backed : memory.Backed before)
    (missing : memory.known? query = none)
    (kept : query ≠ .recompile → ∀ table, before = some table → after = some table) :
    (memory.conclude after query).2.Backed after := by
  by_cases again : query = .recompile
  · subst again
    exact backed_clear memory after
  · intro wanted answer needed known
    by_cases same : wanted = query
    · subst same
      cases after with
      | none =>
        rw [conclude_none memory again, missing] at known
        cases known
      | some table =>
        cases remembered : wanted.isRemembered with
        | true =>
          rw [known?_conclude_of_none remembered missing, Option.some.injEq] at known
          exact ⟨table, rfl, known ▸ content_conclude_lookUp missing (some table)⟩
        | false =>
          rw [known?_of_unremembered needed remembered] at known
          cases known
    · rw [known?_conclude_of_ne memory after again same] at known
      obtain ⟨table, held, equal⟩ := backed wanted answer needed known
      exact ⟨table, kept again table held, equal⟩

end Memory

namespace Desk

def arrival (desk : Desk) (source : Source) : Except GrammarError Compiled :=
  compile desk.loads (source desk.loads).outcome

def reload (desk : Desk) (source : Source) : Desk :=
  { desk with
    cell := desk.cell.advance.2.settle (desk.arrival source)
    loads := desk.loads + 1 }

/-- What a desk gets while nothing is under way, and what becomes of it. -/
inductive Obtains (desk : Desk) (source : Source) : Bool → Option Compiled → Desk → Prop where
  | held {table : Compiled} : desk.cell.phase = .ready table →
      Obtains desk source false (some table) desk
  | loaded {force : Bool} : force = true ∨ desk.cell.phase = .idle →
      Obtains desk source force (desk.arrival source).toOption (desk.reload source)

theorem obtain_of_ready {desk : Desk} {table : Compiled} (ready : desk.cell.phase = .ready table)
    (source : Source) : desk.obtain source false = (some table, false, desk) := by
  simp only [obtain, Cell.enter, ready]

theorem obtain_of_allowed {desk : Desk} {force : Bool}
    (allowed : force = true ∨ desk.cell.phase = .idle) (source : Source) :
    desk.obtain source force =
      ((desk.arrival source).toOption, (source desk.loads).withdraws, desk.reload source) := by
  have published := Cell.publish_of_runs (Cell.runs_advance desk.cell) (desk.arrival source)
  unfold obtain
  rw [Cell.enter_of_allowed allowed]
  simp only [arrival, Cell.advance] at published ⊢
  rw [published]
  rfl

theorem obtains_obtain {desk : Desk} (resting : desk.cell.phase.isRunning = false)
    (source : Source) (force : Bool) :
    desk.Obtains source force (desk.obtain source force).1 (desk.obtain source force).2.2 := by
  have loaded (allowed : force = true ∨ desk.cell.phase = .idle) :
      desk.Obtains source force (desk.obtain source force).1 (desk.obtain source force).2.2 := by
    rw [obtain_of_allowed allowed]
    exact .loaded allowed
  cases force with
  | true => exact loaded (.inl rfl)
  | false =>
    cases phase : desk.cell.phase with
    | idle => exact loaded (.inr phase)
    | running generation waiters =>
      rw [phase] at resting
      cases resting
    | ready table =>
      rw [obtain_of_ready phase]
      exact .held phase

variable {desk next : Desk} {source : Source} {force : Bool} {compiled : Option Compiled}

theorem Obtains.resting (obtains : desk.Obtains source force compiled next) :
    next.cell.phase.isRunning = false := by
  cases obtains with
  | held ready =>
    rw [ready]
    rfl
  | loaded allowed =>
    unfold reload
    cases desk.arrival source <;> rfl

theorem Obtains.value? (obtains : desk.Obtains source force compiled next) :
    next.cell.phase.value? = compiled := by
  cases obtains with
  | held ready =>
    rw [ready]
    rfl
  | loaded allowed =>
    unfold reload
    cases desk.arrival source <;> rfl

theorem Obtains.kept (obtains : desk.Obtains source false compiled next) {table : Compiled}
    (held : desk.cell.phase.value? = some table) : compiled = some table := by
  cases obtains with
  | held ready =>
    rw [ready] at held
    exact held
  | loaded allowed =>
    rcases allowed with insists | idle
    · cases insists
    · rw [idle] at held
      cases held

theorem ask_of_missing {query : Query} (missing : desk.memory.known? query = none) :
    desk.ask source query =
      ((desk.memory.conclude (desk.obtain source query.force).1 query).1,
        (desk.obtain source query.force).2.1,
        { (desk.obtain source query.force).2.2 with
          memory := (desk.memory.conclude (desk.obtain source query.force).1 query).2 }) := by
  have memory : (desk.obtain source query.force).2.2.memory = desk.memory := by
    unfold obtain
    split <;> rfl
  simp [ask, missing, memory]

end Desk

namespace Forgetful

variable {callers : Callers Compiled GrammarError} {desk next : Desk} {source : Source}
  {force : Bool} {compiled : Option Compiled}

theorem obtain_of_done {outcome : Except GrammarError Compiled}
    {later : Callers Compiled GrammarError}
    (polled : (callers.set 0 (.created force)).poll (Session.endings source) 0 =
      later.set 0 (.done outcome)) :
    obtain source callers force = some (outcome, (later.set 0 (.done outcome)).forget 0) := by
  simp [obtain, polled]

theorem obtain_agrees (source : Source) (cell : callers.cell = desk.cell) (loads : callers.loads = desk.loads)
    (obtains : desk.Obtains source force compiled next) :
    ∃ outcome later, obtain source callers force = some (outcome, later) ∧
      outcome.toOption = compiled ∧ later.cell = next.cell ∧ later.loads = next.loads := by
  cases obtains with
  | held ready =>
    rw [← cell] at ready
    exact ⟨_, _, obtain_of_done (Callers.poll_of_ready ready _ _), rfl, cell, loads⟩
  | loaded allowed =>
    rw [← cell] at allowed
    have ended : Session.endings source callers.loads = some (desk.arrival source) := by
      rw [loads]
      rfl
    obtain ⟨settled, polled, now, asked⟩ := Callers.poll_of_allowed allowed ended 0
    rw [cell] at now
    rw [loads] at asked
    exact ⟨_, _, obtain_of_done polled, rfl, now, asked⟩

/-- Both kinds of desk have the same cell and have asked the source equally often. Nothing runs in the
cell, and all that is remembered is what the table in it says. -/
structure Agrees (callers : Callers Compiled GrammarError) (desk : Desk) : Prop where
  cell : callers.cell = desk.cell
  loads : callers.loads = desk.loads
  resting : desk.cell.phase.isRunning = false
  backed : desk.memory.Backed desk.cell.phase.value?

theorem agrees_empty : Agrees .empty .empty where
  cell := rfl
  loads := rfl
  resting := rfl
  backed := Memory.backed_clear .empty none

theorem ask_of_obtained {query : Query} {outcome : Except GrammarError Compiled}
    {later : Callers Compiled GrammarError} (needed : query.needsTable = true)
    (obtained : obtain source callers query.force = some (outcome, later)) :
    ask source callers query = some (query.lookUp outcome.toOption, later) := by
  simp [ask, needed, obtained]

theorem ask_of_unneeded {query : Query} (unneeded : query.needsTable = false) :
    ask source callers query = some (query.lookUp none, callers) := by
  simp [ask, unneeded]

theorem Agrees.ask_of_recalled (agrees : Agrees callers desk) {query : Query}
    {answer : query.Answer} (recalled : desk.memory.known? query = some answer) :
    ∃ later, ask source callers query = some (query.content answer, later) ∧
      Agrees later desk := by
  cases needed : query.needsTable with
  | false =>
    obtain ⟨same, known, content⟩ := Memory.known?_of_unneeded desk.memory needed
    rw [recalled, Option.some.injEq] at known
    rw [ask_of_unneeded needed, known, content]
    exact ⟨callers, rfl, agrees⟩
  | true =>
    obtain ⟨table, held, content⟩ := agrees.backed query answer needed recalled
    have ready : desk.cell.phase = .ready table := Phase.ready_of_value? held
    have unforced : query.force = false := by
      refine Session.force_of_ne ?_
      rintro rfl
      cases recalled
    -- The cell still holds the table, so that nothing is loaded.
    obtain ⟨outcome, later, obtained, got, cell, loads⟩ :=
      obtain_agrees source agrees.cell agrees.loads (.held ready)
    rw [← unforced] at obtained
    rw [ask_of_obtained needed obtained, got, content]
    exact ⟨later, rfl, cell, loads, agrees.resting, agrees.backed⟩

theorem Agrees.ask_of_missing (agrees : Agrees callers desk) {query : Query}
    (missing : desk.memory.known? query = none) :
    ∃ later, ask source callers query = some (query.content (desk.ask source query).1, later) ∧
      Agrees later (desk.ask source query).2.2 := by
  have obtains := Desk.obtains_obtain agrees.resting source query.force
  obtain ⟨outcome, later, obtained, got, cell, loads⟩ :=
    obtain_agrees source agrees.cell agrees.loads obtains
  rw [ask_of_obtained (Memory.needsTable_of_known? missing) obtained, got,
    Desk.ask_of_missing missing, Memory.content_conclude_lookUp missing]
  refine ⟨later, rfl, cell, loads, obtains.resting, ?_⟩
  -- The cell was empty or is filled anew, or else it holds what it held.
  have kept : query ≠ .recompile → ∀ table, desk.cell.phase.value? = some table →
      (desk.obtain source query.force).1 = some table := by
    intro plain table held
    rw [Session.force_of_ne plain] at obtains ⊢
    exact obtains.kept held
  change Memory.Backed _ (desk.obtain source query.force).2.2.cell.phase.value?
  rw [obtains.value?]
  exact agrees.backed.conclude missing kept

/-- Whether or not the answer was remembered, both kinds of desk give it and go on alike. -/
theorem Agrees.ask (agrees : Agrees callers desk) (source : Source) (query : Query) :
    ∃ later, ask source callers query = some (query.content (desk.ask source query).1, later) ∧
      Agrees later (desk.ask source query).2.2 := by
  cases recalled : desk.memory.known? query with
  | some answer =>
    have same : desk.ask source query = (answer, false, desk) := by simp [Desk.ask, recalled]
    rw [same]
    exact agrees.ask_of_recalled recalled
  | none => exact agrees.ask_of_missing recalled

theorem Agrees.askAll (agrees : Agrees callers desk) (source : Source) (queries : List Query) :
    ∃ later, askAll source callers queries = some ((desk.askAll source queries).1, later) ∧
      Agrees later (desk.askAll source queries).2 := by
  induction queries generalizing callers desk with
  | nil => exact ⟨callers, rfl, agrees⟩
  | cons query rest ih =>
    obtain ⟨between, answered, agrees⟩ := agrees.ask source query
    obtain ⟨later, rested, agrees⟩ := ih agrees
    exact ⟨later, by simp [Forgetful.askAll, answered, rested, Desk.askAll], agrees⟩

/-- What is remembered shows neither in the answers nor in how often the source is asked. -/
theorem answers_without_memory (source : Source) (queries : List Query) :
    ∃ later, Forgetful.askAll source .empty queries =
        some ((Desk.empty.askAll source queries).1, later) ∧
      later.loads = (Desk.empty.askAll source queries).2.loads := by
  obtain ⟨later, answered, agrees⟩ := agrees_empty.askAll source queries
  exact ⟨later, answered, agrees.loads⟩

end Forgetful

end RulesAssist.Editor
