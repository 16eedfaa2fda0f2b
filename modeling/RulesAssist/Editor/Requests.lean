import RulesAssist.Editor.Query
import RulesAssist.Grammar.Source
import RulesAssist.SingleFlight.Callers

/-! Many questions under way at once, over one memory and one cell.

A question is answered from memory when it is asked, or else it becomes a caller of the cell. When
the caller is done the answer is drawn from its outcome in the same step, so that a question stands
still only while a grammar is loaded or while it waits for the outcome of another one.
-/

set_option autoImplicit false

namespace RulesAssist.Editor

open SingleFlight (Callers)

abbrev Answered := (query : Query) × query.Answer

/-- The questions under way and the answers given, by the names of their requests. -/
structure Requests where
  callers : Callers Compiled GrammarError
  memory : Memory
  pending : List (SingleFlight.Name × Query)
  answers : List (SingleFlight.Name × Answered)

namespace Requests

def empty : Requests := { callers := .empty, memory := .empty, pending := [], answers := [] }

def conclude (requests : Requests) (name : SingleFlight.Name) : Requests :=
  match requests.callers.stage? name, requests.pending.lookup name with
  | some (.done outcome), some query =>
    let (answer, memory) := requests.memory.conclude outcome.toOption query
    { callers := requests.callers.forget name
      memory
      pending := Keyed.erase name requests.pending
      answers := Keyed.insert name ⟨query, answer⟩ requests.answers }
  | _, _ => requests

def ask (requests : Requests) (name : SingleFlight.Name) (query : Query) : Requests :=
  match requests.memory.known? query with
  | some answer => { requests with answers := Keyed.insert name ⟨query, answer⟩ requests.answers }
  | none =>
    conclude
      { requests with
        callers := requests.callers.enter name query.force
        pending := Keyed.insert name query requests.pending }
      name

/-- Let one request take the step that it is ready for, given the loads that have ended. -/
def step (requests : Requests) (endings : Callers.Endings Compiled GrammarError)
    (name : SingleFlight.Name) : Requests :=
  { requests with callers := requests.callers.step endings name }.conclude name

def drop (requests : Requests) (name : SingleFlight.Name) : Requests :=
  { requests with
    callers := requests.callers.drop name
    pending := Keyed.erase name requests.pending }

end Requests

end RulesAssist.Editor
