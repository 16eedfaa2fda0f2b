import Mathlib
import RulesAssist.SingleFlight.Callers

/-! What one step of a caller can do, and what it leaves alone.

A cell changes hands only when its running computation ends or a caller insists. All else that callers
do, including what is done by leaders that were superseded, leaves the cell and the other callers as
they are.
-/

set_option autoImplicit false

namespace RulesAssist.SingleFlight

variable {Value Failure : Type}

theorem Phase.running_of_mem_waiters {phase : Phase Value} {ticket : Ticket}
    (member : ticket ∈ phase.waiters) :
    ∃ generation waiters, phase = .running generation waiters := by
  cases phase with
  | idle => cases member
  | running generation waiters => exact ⟨generation, waiters, rfl⟩
  | ready value => cases member

theorem Phase.ready_of_value? {phase : Phase Value} {value : Value}
    (held : phase.value? = some value) : phase = .ready value := by
  cases phase with
  | ready found =>
    cases held
    rfl
  | _ => cases held

namespace Cell

theorem enter_of_allowed {cell : Cell Value} {force : Bool}
    (allowed : force = true ∨ cell.phase = .idle) (ticket : Ticket) :
    cell.enter force ticket = cell.advance := by
  unfold enter
  rcases allowed with insists | idle
  · rw [insists]
  · rw [idle]
    cases force <;> rfl

theorem runs_advance (cell : Cell Value) : cell.advance.2.runs (cell.generation + 1) = true :=
  beq_self_eq_true _

def settle (cell : Cell Value) (outcome : Except Failure Value) : Cell Value :=
  { cell with
    phase := match outcome with
      | .ok value => .ready value
      | .error _ => .idle }

theorem publish_of_runs {cell : Cell Value} {generation : Nat} (runs : cell.runs generation = true)
    (outcome : Except Failure Value) :
    cell.publish generation outcome = (cell.settle outcome, cell.phase.waiters) := by
  unfold publish settle
  cases outcome <;> simp only [runs, if_true]

theorem publish_of_superseded {cell : Cell Value} {generation : Nat}
    (superseded : cell.runs generation = false) (outcome : Except Failure Value) :
    cell.publish generation outcome = (cell, []) := by
  unfold publish
  rw [superseded]
  rfl

theorem abandon_of_superseded {cell : Cell Value} {generation : Nat}
    (superseded : cell.runs generation = false) : cell.abandon generation = (cell, []) := by
  unfold abandon
  rw [superseded]
  rfl

theorem abandon_of_runs {cell : Cell Value} {generation : Nat} (runs : cell.runs generation = true) :
    cell.abandon generation = ({ cell with phase := .idle }, cell.phase.waiters) := by
  unfold abandon
  rw [if_pos runs]

theorem runs_settle (cell : Cell Value) (outcome : Except Failure Value) (generation : Nat) :
    (cell.settle outcome).runs generation = false := by
  cases outcome <;> rfl

theorem waiters_settle (cell : Cell Value) (outcome : Except Failure Value) :
    (cell.settle outcome).phase.waiters = [] := by
  cases outcome <;> rfl

theorem ok_of_settle {cell : Cell Value} {outcome : Except Failure Value} {value : Value}
    (ready : (cell.settle outcome).phase = .ready value) : outcome = .ok value := by
  cases outcome with
  | error failure => cases ready
  | ok settled =>
    cases ready
    rfl

/-- The cell is the same, but that a waiter may have joined. -/
inductive Kept (cell : Cell Value) : Cell Value → Prop where
  | same : Kept cell cell
  | joined {generation : Nat} {waiters : List Ticket} (ticket : Ticket) :
      cell.phase = .running generation waiters →
      Kept cell { cell with phase := .running generation (waiters ++ [ticket]) }

theorem Kept.runs {cell next : Cell Value} (kept : cell.Kept next) (generation : Nat) :
    next.runs generation = cell.runs generation := by
  cases kept with
  | same => rfl
  | joined ticket running => simp [Cell.runs, running]

theorem Kept.ready {cell next : Cell Value} (kept : cell.Kept next) {value : Value}
    (ready : cell.phase = .ready value) : next.phase = .ready value := by
  cases kept with
  | same => exact ready
  | joined ticket running =>
    rw [running] at ready
    cases ready

theorem runs_of_ready {cell : Cell Value} {value : Value} (ready : cell.phase = .ready value)
    (generation : Nat) : cell.runs generation = false := by
  simp [Cell.runs, ready]

theorem runs_iff {cell : Cell Value} {generation : Nat} :
    cell.runs generation = true ↔ ∃ waiters, cell.phase = .running generation waiters := by
  unfold runs
  split
  · rename_i phase
    simp [phase]
  · rename_i stopped
    simp only [Bool.false_eq_true, false_iff, not_exists]
    exact stopped generation

theorem occupied_of_runs {cell : Cell Value} {generation : Nat} (runs : cell.runs generation = true) :
    cell.phase ≠ .idle := by
  intro idle
  simp [Cell.runs, idle] at runs

end Cell

namespace Callers

inductive Enters (callers : Callers Value Failure) (name : Name) :
    Bool → Callers Value Failure → Prop where
  | served {value : Value} : callers.cell.phase = .ready value →
      Enters callers name false (callers.set name (.done (.ok value)))
  | queued {generation : Nat} {waiters : List Ticket} :
      callers.cell.phase = .running generation waiters →
      Enters callers name false
        ({ callers with
          cell := { callers.cell with phase := .running generation (waiters ++ [callers.tickets]) }
          tickets := callers.tickets + 1 }.set name (.waiting callers.tickets .none))
  | leads {force : Bool} : force = true ∨ callers.cell.phase = .idle →
      Enters callers name force
        ({ callers with cell := callers.cell.advance.2, loads := callers.loads + 1 }.set name
          (.leading (callers.cell.generation + 1) callers.loads))

theorem enters_enter (callers : Callers Value Failure) (name : Name) (force : Bool) :
    Enters callers name force (callers.enter name force) := by
  unfold enter Cell.enter
  cases force with
  | true => exact .leads (.inl rfl)
  | false =>
    cases phase : callers.cell.phase with
    | idle => exact .leads (.inr phase)
    | running generation waiters => exact .queued phase
    | ready value => exact .served phase

inductive Moves (callers : Callers Value Failure) (endings : Endings Value Failure) (name : Name) :
    Callers Value Failure → Prop where
  | first {force : Bool} {next : Callers Value Failure} :
      callers.stage? name = some (.created force) → Enters callers name force next →
      Moves callers endings name next
  | told {ticket : Ticket} {outcome : Except Failure Value} :
      callers.stage? name = some (.waiting ticket (.outcome outcome)) →
      Moves callers endings name (callers.set name (.done outcome))
  | again {ticket : Ticket} {next : Callers Value Failure} :
      callers.stage? name = some (.waiting ticket .closed) → Enters callers name false next →
      Moves callers endings name next
  | settled {generation load : Nat} {outcome : Except Failure Value} :
      callers.stage? name = some (.leading generation load) → endings load = some outcome →
      callers.cell.runs generation = true →
      Moves callers endings name
        (({ callers with cell := callers.cell.settle outcome }.deliver callers.cell.phase.waiters
          (.outcome outcome)).set name (.done outcome))
  | superseded {generation load : Nat} {outcome : Except Failure Value} :
      callers.stage? name = some (.leading generation load) → endings load = some outcome →
      callers.cell.runs generation = false →
      Moves callers endings name (callers.set name (.done outcome))
  | rested : Moves callers endings name callers

theorem finish_of_runs {callers : Callers Value Failure} {generation : Nat}
    (runs : callers.cell.runs generation = true) (name : Name) (outcome : Except Failure Value) :
    callers.finish name generation outcome =
      ({ callers with cell := callers.cell.settle outcome }.deliver callers.cell.phase.waiters
        (.outcome outcome)).set name (.done outcome) := by
  unfold finish
  rw [Cell.publish_of_runs runs]

theorem finish_of_superseded {callers : Callers Value Failure} {generation : Nat}
    (superseded : callers.cell.runs generation = false) (name : Name)
    (outcome : Except Failure Value) :
    callers.finish name generation outcome = callers.set name (.done outcome) := by
  unfold finish
  rw [Cell.publish_of_superseded superseded]
  dsimp only
  rw [deliver_nil]

theorem moves_step (callers : Callers Value Failure) (endings : Endings Value Failure)
    (name : Name) : Moves callers endings name (callers.step endings name) := by
  unfold step
  split
  · rename_i force stage
    exact .first stage (enters_enter callers name force)
  · rename_i ticket outcome stage
    exact .told stage
  · rename_i ticket stage
    exact .again stage (enters_enter callers name false)
  · rename_i generation load stage
    split
    · rename_i outcome ended
      cases runs : callers.cell.runs generation with
      | true =>
        rw [finish_of_runs runs]
        exact .settled stage ended runs
      | false =>
        rw [finish_of_superseded runs]
        exact .superseded stage ended runs
    · exact .rested
  · exact .rested

/-- All callers have looked at the cell, and no leader is newer than it. -/
structure Ordered (callers : Callers Value Failure) : Prop where
  entered : ∀ name force, callers.stage? name ≠ some (.created force)
  older : ∀ name generation load, callers.stage? name = some (.leading generation load) →
    generation ≤ callers.cell.generation

theorem ordered_empty : (empty : Callers Value Failure).Ordered := ⟨nofun, nofun⟩

theorem Ordered.set {callers : Callers Value Failure} (ordered : callers.Ordered) (name : Name)
    {stage : Stage Value Failure} (entered : ∀ force, stage ≠ .created force)
    (older : ∀ generation load, stage = .leading generation load →
      generation ≤ callers.cell.generation) : (callers.set name stage).Ordered where
  entered := by
    intro other force
    rw [stage?_set]
    split
    · simpa using entered force
    · exact ordered.entered other force
  older := by
    intro other generation load leading
    rw [stage?_set] at leading
    split at leading
    · exact older generation load (Option.some.inj leading)
    · exact ordered.older other generation load leading

theorem Ordered.of_cell {callers : Callers Value Failure} (ordered : callers.Ordered)
    {cell : Cell Value} (newer : callers.cell.generation ≤ cell.generation) (tickets loads : Nat) :
    Ordered { callers with cell, tickets, loads } where
  entered := ordered.entered
  older := by
    intro name generation load leading
    exact Nat.le_trans (ordered.older name generation load leading) newer

theorem Ordered.done {callers : Callers Value Failure} (ordered : callers.Ordered) (name : Name)
    (outcome : Except Failure Value) : (callers.set name (.done outcome)).Ordered :=
  ordered.set name nofun nofun

theorem Ordered.forget {callers : Callers Value Failure} (ordered : callers.Ordered) (name : Name) :
    (callers.forget name).Ordered where
  entered := by
    intro other force
    rw [stage?_forget]
    split
    · nofun
    · exact ordered.entered other force
  older := by
    intro other generation load leading
    rw [stage?_forget] at leading
    split at leading
    · cases leading
    · exact ordered.older other generation load leading

theorem Ordered.deliver {callers : Callers Value Failure} (ordered : callers.Ordered)
    (called : List Ticket) (mail : Mail Value Failure) : (callers.deliver called mail).Ordered where
  entered := by
    intro name force created
    rw [stage?_deliver, Option.map_eq_some_iff] at created
    obtain ⟨stage, found, created⟩ := created
    unfold Stage.deliver at created
    split at created
    · cases created
    · exact ordered.entered name force (created ▸ found)
  older := by
    intro name generation load leading
    rw [stage?_deliver, Option.map_eq_some_iff] at leading
    obtain ⟨stage, found, leads⟩ := leading
    unfold Stage.deliver at leads
    split at leads
    · cases leads
    · exact ordered.older name generation load (leads ▸ found)

theorem Ordered.enters {callers next : Callers Value Failure} (ordered : callers.Ordered)
    {name : Name} {force : Bool} (enters : Enters callers name force next) : next.Ordered := by
  cases enters with
  | served _ => exact ordered.done name _
  | queued running =>
    refine (ordered.of_cell ?_ _ _).set name ?_ ?_
    · exact Nat.le_refl _
    · nofun
    · nofun
  | leads allowed =>
    refine (ordered.of_cell ?_ _ _).set name ?_ ?_
    · exact Nat.le_succ _
    · nofun
    · rintro generation load ⟨⟩
      exact Nat.le_refl _

theorem Ordered.step {callers : Callers Value Failure} (ordered : callers.Ordered)
    (endings : Endings Value Failure) (name : Name) : (callers.step endings name).Ordered := by
  have move := moves_step callers endings name
  generalize callers.step endings name = next at move ⊢
  cases move with
  | first stage _ => exact absurd stage (ordered.entered _ _)
  | told _ => exact ordered.done name _
  | again _ enters => exact ordered.enters enters
  | settled _ _ _ =>
    refine ((ordered.of_cell ?_ _ _).deliver _ _).done name _
    exact Nat.le_refl _
  | superseded _ _ _ => exact ordered.done name _
  | rested => exact ordered

theorem Ordered.drop {callers : Callers Value Failure} (ordered : callers.Ordered) (name : Name) :
    (callers.drop name).Ordered := by
  unfold Callers.drop
  split
  · rename_i generation load stage
    cases runs : callers.cell.runs generation with
    | true =>
      rw [Cell.abandon_of_runs runs]
      refine ((ordered.of_cell ?_ _ _).deliver _ _).forget name
      exact Nat.le_refl _
    | false =>
      rw [Cell.abandon_of_superseded runs]
      exact (ordered.deliver _ _).forget name
  · exact ordered.forget name

/-- One caller goes on and the cell stays as it is. The caller does not become a leader. -/
structure Quiet (callers : Callers Value Failure) (name : Name) (next : Callers Value Failure) :
    Prop where
  cell : callers.cell.Kept next.cell
  others : ∀ other, other ≠ name → next.stage? other = callers.stage? other
  leads : ∀ generation load, next.stage? name = some (.leading generation load) →
    callers.stage? name = some (.leading generation load)
  created : ∀ force, next.stage? name = some (.created force) →
    callers.stage? name = some (.created force)

theorem quiet_rest {callers : Callers Value Failure} {name : Name} : Quiet callers name callers :=
  ⟨.same, fun _ _ => rfl, fun _ _ => id, fun _ => id⟩

theorem quiet_done {callers : Callers Value Failure} {name : Name}
    (outcome : Except Failure Value) : Quiet callers name (callers.set name (.done outcome)) where
  cell := .same
  others := by
    intro other apart
    rw [stage?_set, if_neg apart]
  leads := by
    intro generation load leading
    rw [stage?_set, if_pos rfl] at leading
    cases leading
  created := by
    intro force created
    rw [stage?_set, if_pos rfl] at created
    cases created

theorem quiet_enter {callers next : Callers Value Failure} {name : Name}
    (occupied : callers.cell.phase ≠ .idle) (enters : Enters callers name false next) :
    Quiet callers name next := by
  cases enters with
  | served ready => exact quiet_done _
  | queued running =>
    refine ⟨.joined _ running, ?_, ?_, ?_⟩
    · intro other apart
      rw [stage?_set, if_neg apart]
      rfl
    · intro generation load leading
      rw [stage?_set, if_pos rfl] at leading
      cases leading
    · intro force created
      rw [stage?_set, if_pos rfl] at created
      cases created
  | leads allowed =>
    rcases allowed with insists | idle
    · cases insists
    · exact absurd idle occupied

/-- A step leaves the cell alone unless it is that of the leader whose computation runs. -/
theorem quiet_step {callers : Callers Value Failure} {endings : Endings Value Failure} {name : Name}
    (occupied : callers.cell.phase ≠ .idle)
    (entered : ∀ force, callers.stage? name ≠ some (.created force))
    (superseded : ∀ generation load, callers.stage? name = some (.leading generation load) →
      callers.cell.runs generation = false) :
    Quiet callers name (callers.step endings name) := by
  have move := moves_step callers endings name
  generalize callers.step endings name = next at move ⊢
  cases move with
  | first stage _ => exact absurd stage (entered _)
  | told stage => exact quiet_done _
  | again stage enters =>
    -- A cell that is not idle takes no new leader without being forced.
    exact quiet_enter occupied enters
  | settled stage _ runs =>
    rw [superseded _ _ stage] at runs
    cases runs
  | superseded stage ended runs => exact quiet_done _
  | rested => exact quiet_rest

/-- The outcome that a caller holds or will hold, whatever becomes of the cell. -/
def prospect? (endings : Endings Value Failure) :
    Stage Value Failure → Option (Except Failure Value)
  | .waiting _ (.outcome outcome) | .done outcome => some outcome
  | .leading _ load => endings load
  | _ => none

theorem step_of_prospect {callers : Callers Value Failure} {endings : Endings Value Failure}
    {name : Name} {stage : Stage Value Failure} {outcome : Except Failure Value}
    (found : callers.stage? name = some stage) (holds : prospect? endings stage = some outcome) :
    (callers.step endings name).stage? name = some (.done outcome) := by
  cases stage with
  | created force => cases holds
  | waiting ticket mail =>
    cases mail with
    | none => cases holds
    | closed => cases holds
    | outcome brought =>
      cases holds
      simp [step, found]
  | leading generation load =>
    change endings load = some outcome at holds
    simp [step, found, holds, finish]
  | done brought =>
    cases holds
    simp [step, found]

theorem step_of_ready {callers : Callers Value Failure} {endings : Endings Value Failure}
    {name : Name} {value : Value} {stage : Stage Value Failure}
    (ready : callers.cell.phase = .ready value) (found : callers.stage? name = some stage)
    (entered : ∀ force, stage ≠ .created force) :
    callers.step endings name = callers ∨
      ∃ outcome, callers.step endings name = callers.set name (.done outcome) ∧
        (outcome = .ok value ∨ prospect? endings stage = some outcome) := by
  have move := moves_step callers endings name
  generalize callers.step endings name = next at move ⊢
  cases move with
  | first created _ =>
    rw [found, Option.some.injEq] at created
    exact absurd created (entered _)
  | told told =>
    rw [found, Option.some.injEq] at told
    subst told
    exact .inr ⟨_, rfl, .inr rfl⟩
  | again _ enters =>
    cases enters with
    | served served =>
      rw [ready, Phase.ready.injEq] at served
      subst served
      exact .inr ⟨_, rfl, .inl rfl⟩
    | queued running =>
      rw [ready] at running
      cases running
    | leads allowed =>
      rw [ready] at allowed
      rcases allowed with insists | idle
      · cases insists
      · cases idle
  | settled _ _ runs =>
    -- Nothing runs in a cell that is ready.
    rw [Cell.runs_of_ready ready] at runs
    cases runs
  | superseded leading ended _ =>
    rw [found, Option.some.injEq] at leading
    subst leading
    exact .inr ⟨_, rfl, .inr ended⟩
  | rested => exact .inl rfl

theorem quiet_drop {callers : Callers Value Failure} {name : Name}
    (superseded : ∀ generation load, callers.stage? name = some (.leading generation load) →
      callers.cell.runs generation = false) : callers.drop name = callers.forget name := by
  unfold drop
  split
  · rename_i generation load stage
    rw [Cell.abandon_of_superseded (superseded generation load stage)]
    dsimp only
    rw [deliver_nil]
  · rfl

theorem poll_created (callers : Callers Value Failure) (endings : Endings Value Failure)
    (name : Name) (force : Bool) :
    (callers.set name (.created force)).poll endings name =
      ((callers.set name (.created force)).enter name force).step endings name := by
  have entered : (callers.set name (.created force)).step endings name =
      (callers.set name (.created force)).enter name force := by
    simp [step]
  rw [poll, entered]

theorem poll_of_ready {callers : Callers Value Failure} {value : Value}
    (ready : callers.cell.phase = .ready value) (endings : Endings Value Failure) (name : Name) :
    (callers.set name (.created false)).poll endings name =
      (callers.set name (.created false)).set name (.done (.ok value)) := by
  have entered : (callers.set name (.created false)).enter name false =
      (callers.set name (.created false)).set name (.done (.ok value)) := by
    simp only [enter, Cell.enter, cell_set, ready]
    rfl
  rw [poll_created, entered]
  simp [step]

theorem poll_of_allowed {callers : Callers Value Failure} {endings : Endings Value Failure}
    {force : Bool} {outcome : Except Failure Value}
    (allowed : force = true ∨ callers.cell.phase = .idle)
    (ended : endings callers.loads = some outcome) (name : Name) :
    ∃ next : Callers Value Failure,
      (callers.set name (.created force)).poll endings name = next.set name (.done outcome) ∧
        next.cell = callers.cell.advance.2.settle outcome ∧ next.loads = callers.loads + 1 := by
  let leading : Callers Value Failure :=
    { callers.set name (.created force) with
      cell := callers.cell.advance.2, loads := callers.loads + 1 }.set name
        (.leading (callers.cell.generation + 1) callers.loads)
  have entered : (callers.set name (.created force)).enter name force = leading := by
    unfold enter
    rw [cell_set, Cell.enter_of_allowed allowed]
    rfl
  have stepped : leading.step endings name =
      leading.finish name (callers.cell.generation + 1) outcome := by
    simp [leading, step, ended]
  have runs : leading.cell.runs (callers.cell.generation + 1) = true :=
    Cell.runs_advance callers.cell
  rw [poll_created, entered, stepped, finish_of_runs runs]
  exact ⟨_, rfl, rfl, rfl⟩

end Callers

end RulesAssist.SingleFlight
