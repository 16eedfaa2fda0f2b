import RulesAssist.Editor.Query
import RulesAssist.Grammar.Source
import RulesAssist.SingleFlight.Cell

/-! Answering one question after another: the table is compiled when it is first needed. -/

set_option autoImplicit false

namespace RulesAssist.Editor

open SingleFlight

/-- The compiled table if there is one, how often the source was asked, and the remembered answers. -/
structure Desk where
  cell : Cell Compiled
  loads : Nat
  memory : Memory

namespace Desk

def empty : Desk := { cell := .empty, loads := 0, memory := .empty }

def compile (load : Nat) (outcome : Except GrammarError Grammar) : Except GrammarError Compiled :=
  outcome.map fun grammar => ⟨load, SymbolTable.compile grammar⟩

/-- Get the table, asking the source if the cell is empty or if that is forced. The flag tells
whether the load made the editor withdraw its request.

Between two questions no computation is under way, so that nobody ever waits. -/
def obtain (desk : Desk) (source : Source) (force : Bool) : Option Compiled × Bool × Desk :=
  match desk.cell.enter force 0 with
  | (.ready table, cell) => (some table, false, { desk with cell })
  | (.wait, cell) => (none, false, { desk with cell })
  | (.lead generation, cell) =>
    let delivery := source desk.loads
    let outcome := compile desk.loads delivery.outcome
    let (cell, _) := cell.publish generation outcome
    (outcome.toOption, delivery.withdraws, { desk with cell, loads := desk.loads + 1 })

def ask (desk : Desk) (source : Source) (query : Query) : query.Answer × Bool × Desk :=
  match desk.memory.known? query with
  | some answer => (answer, false, desk)
  | none =>
    let (compiled, withdrawn, desk) := desk.obtain source query.force
    let (answer, memory) := desk.memory.conclude compiled query
    (answer, withdrawn, { desk with memory })

end Desk

end RulesAssist.Editor
