/-! A cell that is filled by one computation at a time.

The first caller to find the cell empty leads a computation. Callers that come while it runs are
waiters, and take over its outcome. A forced caller starts a new generation and adopts the waiters;
the outcome of an older generation is then no longer accepted.
-/

set_option autoImplicit false

namespace RulesAssist.SingleFlight

abbrev Ticket := Nat

inductive Phase (Value : Type) where
  | idle
  | running (generation : Nat) (waiters : List Ticket)
  | ready (value : Value)

/-- The phase, and the number of the newest generation. -/
structure Cell (Value : Type) where
  phase : Phase Value
  generation : Nat

inductive Entrance (Value : Type) where
  | ready (value : Value)
  | wait
  | lead (generation : Nat)

variable {Value Failure : Type}

namespace Phase

def waiters : Phase Value → List Ticket
  | .running _ waiters => waiters
  | _ => []

def value? : Phase Value → Option Value
  | .ready value => some value
  | _ => none

def isRunning : Phase Value → Bool
  | .running _ _ => true
  | _ => false

end Phase

namespace Cell

def empty : Cell Value := { phase := .idle, generation := 0 }

/-- Start the next generation with the waiters of the running one. -/
def advance (cell : Cell Value) : Entrance Value × Cell Value :=
  let generation := cell.generation + 1
  (.lead generation, { phase := .running generation cell.phase.waiters, generation })

/-- Look at the cell. A caller that waits leaves its ticket. -/
def enter (cell : Cell Value) (force : Bool) (ticket : Ticket) : Entrance Value × Cell Value :=
  match force, cell.phase with
  | false, .ready value => (.ready value, cell)
  | false, .running generation waiters =>
    (.wait, { cell with phase := .running generation (waiters ++ [ticket]) })
  -- The cell is idle, or the caller insists.
  | _, _ => cell.advance

def runs (cell : Cell Value) (generation : Nat) : Bool :=
  match cell.phase with
  | .running current _ => current == generation
  | _ => false

/-- Hand in the outcome of a generation. If it is current it settles the cell and goes to the waiters
returned; otherwise the cell stays as it is. -/
def publish (cell : Cell Value) (generation : Nat) (outcome : Except Failure Value) :
    Cell Value × List Ticket :=
  if cell.runs generation then
    let phase : Phase Value :=
      match outcome with
      | .ok value => .ready value
      | .error _ => .idle
    ({ cell with phase }, cell.phase.waiters)
  else
    (cell, [])

/-- Give up a generation. If it is current its waiters, returned, have to look at the cell again. -/
def abandon (cell : Cell Value) (generation : Nat) : Cell Value × List Ticket :=
  if cell.runs generation then ({ cell with phase := .idle }, cell.phase.waiters)
  else (cell, [])

end Cell

end RulesAssist.SingleFlight
