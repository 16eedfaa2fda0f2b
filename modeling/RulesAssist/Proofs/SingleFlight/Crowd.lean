import RulesAssist.Proofs.SingleFlight.Moves

/-! Callers that come, go on and go away in any order.

A caller is named by the number of those that came before it. What it does until it has to wait is one
event, and so is the end of a load together with the handing out of its outcome. The outcomes of the
loads are part of the events, so that they can be any.
-/

set_option autoImplicit false

namespace RulesAssist.SingleFlight

inductive Event (Value Failure : Type) where
  | call (force : Bool)
  /-- A caller goes on. If it leads, the ending is the outcome of its load, should that have ended. -/
  | resume (name : Name) (ending : Option (Except Failure Value))
  | drop (name : Name)

structure Crowd (Value Failure : Type) where
  callers : Callers Value Failure
  came : Name
  /-- How the generations ended that nobody leads any more: with the outcome of the load, or with none
  if the leader was dropped. Nothing in the system looks at it. -/
  past : List (Nat × Option (Except Failure Value))

variable {Value Failure : Type}

/-- Whether a caller insists that looks at the cell when it goes on. -/
def Stage.knocks? : Stage Value Failure → Option Bool
  | .created force => some force
  | .waiting _ .closed => some false
  | _ => none

namespace Callers

theorem stage?_of_set {callers : Callers Value Failure} {name other : Name}
    {stage found : Stage Value Failure} (stands : (callers.set name stage).stage? other = some found) :
    (other = name ∧ stage = found) ∨ (other ≠ name ∧ callers.stage? other = some found) := by
  rw [stage?_set] at stands
  split at stands
  · rename_i same
    exact .inl ⟨same, Option.some.inj stands⟩
  · rename_i apart
    exact .inr ⟨apart, stands⟩

theorem stood_of_set {callers : Callers Value Failure} {name other : Name}
    {stage found : Stage Value Failure} (stands : (callers.set name stage).stage? other = some found)
    (apart : stage ≠ found) : other ≠ name ∧ callers.stage? other = some found :=
  (stage?_of_set stands).resolve_left fun same => apart same.2

theorem stage?_of_forget {callers : Callers Value Failure} {name other : Name}
    {found : Stage Value Failure} (stands : (callers.forget name).stage? other = some found) :
    other ≠ name ∧ callers.stage? other = some found := by
  rw [stage?_forget] at stands
  split at stands
  · cases stands
  · rename_i apart
    exact ⟨apart, stands⟩

theorem stage?_of_deliver {callers : Callers Value Failure} {called : List Ticket}
    {mail : Mail Value Failure} {other : Name} {found : Stage Value Failure}
    (stands : (callers.deliver called mail).stage? other = some found) :
    ∃ before, callers.stage? other = some before ∧ before.deliver called mail = found := by
  rw [stage?_deliver] at stands
  exact Option.map_eq_some_iff.mp stands

theorem stood_of_deliver {callers : Callers Value Failure} {called : List Ticket}
    {mail : Mail Value Failure} {other : Name} {found : Stage Value Failure}
    (stands : (callers.deliver called mail).stage? other = some found)
    (busy : ∀ ticket mail, found ≠ .waiting ticket mail) : callers.stage? other = some found := by
  obtain ⟨before, stood, same⟩ := stage?_of_deliver stands
  unfold Stage.deliver at same
  split at same
  · exact absurd same.symm (busy _ _)
  · exact same ▸ stood

theorem drop_of_leading {callers : Callers Value Failure} {name : Name} {generation load : Nat}
    (leading : callers.stage? name = some (.leading generation load)) :
    callers.drop name =
      if callers.cell.runs generation then
        ({ callers with cell := { callers.cell with phase := .idle } }.deliver
          callers.cell.phase.waiters .closed).forget name
      else callers.forget name := by
  unfold drop
  rw [leading]
  dsimp only
  split
  · rename_i runs
    rw [Cell.abandon_of_runs runs]
  · rename_i superseded
    rw [Cell.abandon_of_superseded (Bool.eq_false_iff.mpr superseded)]
    dsimp only
    rw [deliver_nil]

theorem drop_of_idle {callers : Callers Value Failure} {name : Name}
    (idle : ∀ generation load, callers.stage? name ≠ some (.leading generation load)) :
    callers.drop name = callers.forget name :=
  quiet_drop fun generation load leading => absurd leading (idle generation load)

end Callers

namespace Crowd

def start : Crowd Value Failure := { callers := .empty, came := 0, past := [] }

/-- If the caller leads, its generation is over. -/
def close (crowd : Crowd Value Failure) (name : Name) (ending : Option (Except Failure Value)) :
    List (Nat × Option (Except Failure Value)) :=
  match crowd.callers.stage? name with
  | some (.leading generation _) => (generation, ending) :: crowd.past
  | _ => crowd.past

def turn (crowd : Crowd Value Failure) : Event Value Failure → Crowd Value Failure
  | .call force =>
    { crowd with
      callers := crowd.callers.set crowd.came (.created force)
      came := crowd.came + 1 }
  | .resume name ending =>
    { crowd with
      callers := crowd.callers.step (fun _ => ending) name
      past := if ending.isSome then crowd.close name ending else crowd.past }
  | .drop name =>
    { crowd with callers := crowd.callers.drop name, past := crowd.close name none }

def run (events : List (Event Value Failure)) : Crowd Value Failure :=
  events.foldl turn start

theorem run_append (events later : List (Event Value Failure)) :
    run (events ++ later) = later.foldl turn (run events) :=
  List.foldl_append

theorem run_concat (events : List (Event Value Failure)) (event : Event Value Failure) :
    run (events ++ [event]) = (run events).turn event :=
  run_append events [event]

theorem foldl_keeps {property : Crowd Value Failure → Prop} {kind : Event Value Failure → Prop}
    (keeps : ∀ crowd event, kind event → property crowd → property (crowd.turn event))
    (events : List (Event Value Failure)) (all : ∀ event ∈ events, kind event)
    {crowd : Crowd Value Failure} (now : property crowd) : property (events.foldl turn crowd) := by
  induction events generalizing crowd with
  | nil => exact now
  | cons event rest ih =>
    exact ih (fun other member => all other (List.mem_cons_of_mem _ member))
      (keeps crowd event (all event (List.mem_cons_self ..)) now)

theorem run_induction {property : Crowd Value Failure → Prop} (first : property start)
    (keeps : ∀ crowd event, property crowd → property (crowd.turn event))
    (events : List (Event Value Failure)) : property (run events) :=
  @foldl_keeps Value Failure property (fun _ => True) (fun crowd event _ => keeps crowd event) events
    (fun _ _ => trivial) start first

/-- Letting a caller go as far as it can is resuming it twice. -/
theorem exists_resume_eq_poll (crowd : Crowd Value Failure)
    (endings : Callers.Endings Value Failure) (name : Name) :
    ∃ first second, ((crowd.turn (.resume name first)).turn (.resume name second)).callers =
      crowd.callers.poll endings name := by
  have resumed : ∀ callers : Callers Value Failure, ∃ ending,
      callers.step (fun _ => ending) name = callers.step endings name := by
    intro callers
    unfold Callers.step
    split
    · exact ⟨none, rfl⟩
    · exact ⟨none, rfl⟩
    · exact ⟨none, rfl⟩
    · rename_i generation load _
      exact ⟨endings load, rfl⟩
    · exact ⟨none, rfl⟩
  obtain ⟨first, one⟩ := resumed crowd.callers
  obtain ⟨second, two⟩ := resumed (crowd.callers.step endings name)
  refine ⟨first, second, ?_⟩
  unfold turn Callers.poll
  rw [← two, ← one]

inductive Turns (crowd : Crowd Value Failure) :
    Event Value Failure → Crowd Value Failure → Prop where
  | called (force : Bool) : Turns crowd (.call force)
      { crowd with
        callers := crowd.callers.set crowd.came (.created force)
        came := crowd.came + 1 }
  | entered {name : Name} {ending : Option (Except Failure Value)} {stage : Stage Value Failure}
      {force : Bool} {next : Callers Value Failure} :
      crowd.callers.stage? name = some stage → stage.knocks? = some force →
      Callers.Enters crowd.callers name force next →
      Turns crowd (.resume name ending) { crowd with callers := next }
  | told {name : Name} {ending : Option (Except Failure Value)} {ticket : Ticket}
      {outcome : Except Failure Value} :
      crowd.callers.stage? name = some (.waiting ticket (.outcome outcome)) →
      Turns crowd (.resume name ending)
        { crowd with callers := crowd.callers.set name (.done outcome) }
  | settled {name : Name} {generation load : Nat} {outcome : Except Failure Value} :
      crowd.callers.stage? name = some (.leading generation load) →
      crowd.callers.cell.runs generation = true →
      Turns crowd (.resume name (some outcome))
        { crowd with
          callers := ({ crowd.callers with cell := crowd.callers.cell.settle outcome }.deliver
            crowd.callers.cell.phase.waiters (.outcome outcome)).set name (.done outcome)
          past := (generation, some outcome) :: crowd.past }
  | superseded {name : Name} {generation load : Nat} {outcome : Except Failure Value} :
      crowd.callers.stage? name = some (.leading generation load) →
      crowd.callers.cell.runs generation = false →
      Turns crowd (.resume name (some outcome))
        { crowd with
          callers := crowd.callers.set name (.done outcome)
          past := (generation, some outcome) :: crowd.past }
  | rested {name : Name} {ending : Option (Except Failure Value)} :
      Turns crowd (.resume name ending) crowd
  | abandoned {name : Name} {generation load : Nat} :
      crowd.callers.stage? name = some (.leading generation load) →
      crowd.callers.cell.runs generation = true →
      Turns crowd (.drop name)
        { crowd with
          callers := ({ crowd.callers with cell := { crowd.callers.cell with phase := .idle } }.deliver
            crowd.callers.cell.phase.waiters .closed).forget name
          past := (generation, none) :: crowd.past }
  | withdrawn {name : Name} {generation load : Nat} :
      crowd.callers.stage? name = some (.leading generation load) →
      crowd.callers.cell.runs generation = false →
      Turns crowd (.drop name)
        { crowd with
          callers := crowd.callers.forget name
          past := (generation, none) :: crowd.past }
  | left {name : Name} :
      (∀ generation load, crowd.callers.stage? name ≠ some (.leading generation load)) →
      Turns crowd (.drop name) { crowd with callers := crowd.callers.forget name }

theorem close_of_leading {crowd : Crowd Value Failure} {name : Name} {generation load : Nat}
    (leading : crowd.callers.stage? name = some (.leading generation load))
    (ending : Option (Except Failure Value)) :
    crowd.close name ending = (generation, ending) :: crowd.past := by
  unfold close
  rw [leading]

theorem close_of_idle {crowd : Crowd Value Failure} {name : Name}
    (idle : ∀ generation load, crowd.callers.stage? name ≠ some (.leading generation load))
    (ending : Option (Except Failure Value)) : crowd.close name ending = crowd.past := by
  unfold close
  split
  · rename_i leading
    exact absurd leading (idle _ _)
  · rfl

theorem turn_resume_of_idle {crowd : Crowd Value Failure} {name : Name}
    (idle : ∀ generation load, crowd.callers.stage? name ≠ some (.leading generation load))
    (ending : Option (Except Failure Value)) :
    crowd.turn (.resume name ending) =
      { crowd with callers := crowd.callers.step (fun _ => ending) name } := by
  unfold turn
  dsimp only
  rw [close_of_idle idle, ite_self]

theorem turns_resume (crowd : Crowd Value Failure) (name : Name)
    (ending : Option (Except Failure Value)) :
    Turns crowd (.resume name ending) (crowd.turn (.resume name ending)) := by
  -- Only the end of a leader is noted; all others move as callers do.
  by_cases leads : ∃ generation load, crowd.callers.stage? name = some (.leading generation load)
  · obtain ⟨generation, load, leading⟩ := leads
    cases ending with
    | none =>
      have still : crowd.turn (.resume name none) = crowd := by
        simp [turn, Callers.step, leading]
      rw [still]
      exact .rested
    | some outcome =>
      have ended : crowd.turn (.resume name (some outcome)) =
          { crowd with
            callers := crowd.callers.finish name generation outcome
            past := (generation, some outcome) :: crowd.past } := by
        simp [turn, Callers.step, leading, close_of_leading leading]
      rw [ended]
      cases runs : crowd.callers.cell.runs generation with
      | true =>
        rw [Callers.finish_of_runs runs]
        exact .settled leading runs
      | false =>
        rw [Callers.finish_of_superseded runs]
        exact .superseded leading runs
  · have idle : ∀ generation load,
        crowd.callers.stage? name ≠ some (.leading generation load) :=
      fun generation load leading => leads ⟨generation, load, leading⟩
    rw [turn_resume_of_idle idle]
    have move := Callers.moves_step crowd.callers (fun _ => ending) name
    generalize crowd.callers.step (fun _ => ending) name = next at move ⊢
    cases move with
    | first stage enters => exact .entered stage rfl enters
    | told stage => exact .told stage
    | again stage enters => exact .entered stage rfl enters
    | settled leading _ _ => exact absurd leading (idle _ _)
    | superseded leading _ _ => exact absurd leading (idle _ _)
    | rested => exact .rested

theorem turns_drop (crowd : Crowd Value Failure) (name : Name) :
    Turns crowd (.drop name) (crowd.turn (.drop name)) := by
  unfold turn
  dsimp only
  by_cases leads : ∃ generation load, crowd.callers.stage? name = some (.leading generation load)
  · obtain ⟨generation, load, leading⟩ := leads
    rw [close_of_leading leading, Callers.drop_of_leading leading]
    split
    · rename_i runs
      exact .abandoned leading runs
    · rename_i superseded
      exact .withdrawn leading (Bool.eq_false_iff.mpr superseded)
  · have idle : ∀ generation load,
        crowd.callers.stage? name ≠ some (.leading generation load) :=
      fun generation load leading => leads ⟨generation, load, leading⟩
    rw [close_of_idle idle, Callers.drop_of_idle idle]
    exact .left idle

theorem turns_turn (crowd : Crowd Value Failure) (event : Event Value Failure) :
    Turns crowd event (crowd.turn event) := by
  cases event with
  | call force => exact .called force
  | resume name ending => exact turns_resume crowd name ending
  | drop name => exact turns_drop crowd name

end Crowd

end RulesAssist.SingleFlight
