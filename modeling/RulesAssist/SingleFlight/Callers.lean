import RulesAssist.Keyed
import RulesAssist.SingleFlight.Cell

/-! Any number of callers of one cell, taking their steps in any order.

A caller enters, and then it leads, waits or is done. Every lead loads once from the source, and the
loads are numbered in the order in which they start. A caller can be dropped at any time.
-/

set_option autoImplicit false

namespace RulesAssist.SingleFlight

variable {Value Failure : Type}

/-- What has come for a waiter: nothing yet, an outcome, or word that no outcome will come. -/
inductive Mail (Value Failure : Type) where
  | none
  | outcome (outcome : Except Failure Value)
  | closed

inductive Stage (Value Failure : Type) where
  | created (force : Bool)
  | waiting (ticket : Ticket) (mail : Mail Value Failure)
  | leading (generation load : Nat)
  | done (outcome : Except Failure Value)

abbrev Name := Nat

structure Callers (Value Failure : Type) where
  cell : Cell Value
  stages : List (Name × Stage Value Failure)
  tickets : Nat
  loads : Nat

namespace Stage

/-- Put mail into the box of a waiter whose ticket is called. -/
def deliver (called : List Ticket) (mail : Mail Value Failure) :
    Stage Value Failure → Stage Value Failure
  | .waiting ticket .none => .waiting ticket (if ticket ∈ called then mail else .none)
  | stage => stage

end Stage

namespace Callers

def empty : Callers Value Failure :=
  { cell := .empty, stages := [], tickets := 0, loads := 0 }

def stage? (callers : Callers Value Failure) (name : Name) : Option (Stage Value Failure) :=
  callers.stages.lookup name

def set (callers : Callers Value Failure) (name : Name) (stage : Stage Value Failure) :
    Callers Value Failure :=
  { callers with stages := Keyed.insert name stage callers.stages }

def forget (callers : Callers Value Failure) (name : Name) : Callers Value Failure :=
  { callers with stages := Keyed.erase name callers.stages }

def deliver (callers : Callers Value Failure) (called : List Ticket) (mail : Mail Value Failure) :
    Callers Value Failure :=
  { callers with stages := callers.stages.map fun entry => (entry.1, entry.2.deliver called mail) }

@[simp] theorem stage?_set (callers : Callers Value Failure) (name wanted : Name)
    (stage : Stage Value Failure) :
    (callers.set name stage).stage? wanted =
      if wanted = name then some stage else callers.stage? wanted :=
  Keyed.lookup_insert name wanted stage callers.stages

@[simp] theorem stage?_forget (callers : Callers Value Failure) (name wanted : Name) :
    (callers.forget name).stage? wanted = if wanted = name then none else callers.stage? wanted :=
  Keyed.lookup_erase name wanted callers.stages

@[simp] theorem stage?_deliver (callers : Callers Value Failure) (called : List Ticket)
    (mail : Mail Value Failure) (wanted : Name) :
    (callers.deliver called mail).stage? wanted =
      (callers.stage? wanted).map (Stage.deliver called mail) := by
  unfold stage? deliver
  induction callers.stages with
  | nil => rfl
  | cons entry rest ih =>
    obtain ⟨name, stage⟩ := entry
    by_cases here : wanted = name
    · simp [here]
    · simp [Keyed.lookup_cons, here, ih]

@[simp] theorem cell_set (callers : Callers Value Failure) (name : Name)
    (stage : Stage Value Failure) : (callers.set name stage).cell = callers.cell := rfl

@[simp] theorem cell_forget (callers : Callers Value Failure) (name : Name) :
    (callers.forget name).cell = callers.cell := rfl

@[simp] theorem cell_deliver (callers : Callers Value Failure) (called : List Ticket)
    (mail : Mail Value Failure) : (callers.deliver called mail).cell = callers.cell := rfl

@[simp] theorem deliver_nil (callers : Callers Value Failure) (mail : Mail Value Failure) :
    callers.deliver [] mail = callers := by
  have unchanged : ∀ stage : Stage Value Failure, stage.deliver [] mail = stage := by
    intro stage
    unfold Stage.deliver
    split
    · simp
    · rfl
  simp [deliver, unchanged]

def enter (callers : Callers Value Failure) (name : Name) (force : Bool) : Callers Value Failure :=
  let (entrance, cell) := callers.cell.enter force callers.tickets
  match entrance with
  | .ready value => { callers with cell }.set name (.done (.ok value))
  | .wait => { callers with cell, tickets := callers.tickets + 1 }.set name
      (.waiting callers.tickets .none)
  | .lead generation => { callers with cell, loads := callers.loads + 1 }.set name
      (.leading generation callers.loads)

def finish (callers : Callers Value Failure) (name : Name) (generation : Nat)
    (outcome : Except Failure Value) : Callers Value Failure :=
  let (cell, called) := callers.cell.publish generation outcome
  ({ callers with cell }.deliver called (.outcome outcome)).set name (.done outcome)

/-- A caller goes away; a leader gives up its generation. -/
def drop (callers : Callers Value Failure) (name : Name) : Callers Value Failure :=
  match callers.stage? name with
  | some (.leading generation _) =>
    let (cell, called) := callers.cell.abandon generation
    ({ callers with cell }.deliver called .closed).forget name
  | _ => callers.forget name

abbrev Endings (Value Failure : Type) := Nat → Option (Except Failure Value)

def step (callers : Callers Value Failure) (endings : Endings Value Failure) (name : Name) :
    Callers Value Failure :=
  match callers.stage? name with
  | some (.created force) => callers.enter name force
  | some (.waiting _ (.outcome outcome)) => callers.set name (.done outcome)
  | some (.waiting _ .closed) => callers.enter name false
  | some (.leading generation load) =>
    match endings load with
    | some outcome => callers.finish name generation outcome
    | none => callers
  | _ => callers

/-- Let one caller go as far as it can. From any stage two steps are enough, since the load of a new
leader has not ended and the mail of a new waiter has not come. -/
def poll (callers : Callers Value Failure) (endings : Endings Value Failure) (name : Name) :
    Callers Value Failure :=
  (callers.step endings name).step endings name

end Callers

end RulesAssist.SingleFlight
