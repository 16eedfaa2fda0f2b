import RulesAssist.Editor.Desk
import RulesAssist.Editor.Requests
import RulesAssist.Proofs.SingleFlight.Moves

/-! Runs of questions that are under way at the same time.

Questions are asked, resumed and dropped in any order, and are named by their numbers. A leader that
is resumed finds its load ended, so that loads end in the order in which their leaders are resumed.
-/

set_option autoImplicit false

namespace RulesAssist.Editor

open SingleFlight

namespace Requests

theorem conclude_of_done {requests : Requests} {name : SingleFlight.Name}
    {outcome : Except GrammarError Compiled} {query : Query}
    (done : requests.callers.stage? name = some (.done outcome))
    (asked : requests.pending.lookup name = some query) :
    requests.conclude name =
      { callers := requests.callers.forget name
        memory := (requests.memory.conclude outcome.toOption query).2
        pending := Keyed.erase name requests.pending
        answers := Keyed.insert name ⟨query, (requests.memory.conclude outcome.toOption query).1⟩
          requests.answers } := by
  simp [conclude, done, asked]

theorem conclude_of_open {requests : Requests} {name : SingleFlight.Name}
    (unfinished : ∀ outcome, requests.callers.stage? name ≠ some (.done outcome)) :
    requests.conclude name = requests := by
  unfold conclude
  split
  · rename_i done _
    exact absurd done (unfinished _)
  · rfl

theorem conclude_of_unasked {requests : Requests} {name : SingleFlight.Name}
    (unasked : requests.pending.lookup name = none) : requests.conclude name = requests := by
  unfold conclude
  rw [unasked]
  split
  · rename_i asked
    cases asked
  · rfl

theorem ask_of_recalled {requests : Requests} {query : Query} {answer : query.Answer}
    (recalled : requests.memory.known? query = some answer) (name : SingleFlight.Name) :
    requests.ask name query =
      { requests with answers := Keyed.insert name ⟨query, answer⟩ requests.answers } := by
  simp [ask, recalled]

def enter (requests : Requests) (name : SingleFlight.Name) (query : Query) : Requests :=
  { requests with
    callers := requests.callers.enter name query.force
    pending := Keyed.insert name query requests.pending }

theorem ask_of_missing {requests : Requests} {query : Query}
    (missing : requests.memory.known? query = none) (name : SingleFlight.Name) :
    requests.ask name query = (requests.enter name query).conclude name := by
  simp [ask, missing, enter]

def move (requests : Requests) (endings : Callers.Endings Compiled GrammarError)
    (name : SingleFlight.Name) : Requests :=
  { requests with callers := requests.callers.step endings name }

theorem step_eq (requests : Requests) (endings : Callers.Endings Compiled GrammarError)
    (name : SingleFlight.Name) :
    requests.step endings name = (requests.move endings name).conclude name := rfl

theorem callers_conclude (requests : Requests) (name : SingleFlight.Name) :
    (requests.conclude name).callers = requests.callers ∨
      (requests.conclude name).callers = requests.callers.forget name := by
  unfold conclude
  split
  · exact .inr rfl
  · exact .inl rfl

@[simp] theorem cell_conclude (requests : Requests) (name : SingleFlight.Name) :
    (requests.conclude name).callers.cell = requests.callers.cell := by
  rcases callers_conclude requests name with same | gone
  · rw [same]
  · rw [gone, Callers.cell_forget]

theorem stage?_conclude (requests : Requests) (name other : SingleFlight.Name) :
    (requests.conclude name).callers.stage? other = requests.callers.stage? other ∨
      other = name ∧ (requests.conclude name).callers.stage? other = none := by
  rcases callers_conclude requests name with same | gone
  · rw [same]
    exact .inl rfl
  · rw [gone, Callers.stage?_forget]
    split
    · rename_i same
      exact .inr ⟨same, rfl⟩
    · exact .inl rfl

theorem pending_conclude (requests : Requests) (name other : SingleFlight.Name) :
    (requests.conclude name).pending.lookup other = requests.pending.lookup other ∨
      other = name ∧ (requests.conclude name).pending.lookup other = none := by
  unfold conclude
  split
  · simp only [Keyed.lookup_erase]
    split
    · rename_i same
      exact .inr ⟨same, rfl⟩
    · exact .inl rfl
  · exact .inl rfl

theorem stage?_conclude_of_ne {requests : Requests} {name other : SingleFlight.Name}
    (apart : other ≠ name) :
    (requests.conclude name).callers.stage? other = requests.callers.stage? other :=
  (stage?_conclude requests name other).resolve_right fun gone => apart gone.1

theorem pending_conclude_of_ne {requests : Requests} {name other : SingleFlight.Name}
    (apart : other ≠ name) :
    (requests.conclude name).pending.lookup other = requests.pending.lookup other :=
  (pending_conclude requests name other).resolve_right fun gone => apart gone.1

theorem answers_conclude_of_ne {requests : Requests} {name other : SingleFlight.Name}
    (apart : other ≠ name) :
    (requests.conclude name).answers.lookup other = requests.answers.lookup other := by
  unfold conclude
  split
  · exact Keyed.lookup_insert_of_ne apart ..
  · rfl

end Requests

inductive Event where
  | ask (query : Query)
  | resume (name : SingleFlight.Name)
  | drop (name : SingleFlight.Name)
  deriving DecidableEq, Repr

/-- The requests, and how many questions were asked. The next one is named by that number. -/
structure Session where
  requests : Requests
  asked : SingleFlight.Name

namespace Session

def start : Session := { requests := .empty, asked := 0 }

def endings (source : Source) : Callers.Endings Compiled GrammarError :=
  fun load => some (Desk.compile load (source load).outcome)

def turn (source : Source) (session : Session) : Event → Session
  | .ask query =>
    { requests := session.requests.ask session.asked query, asked := session.asked + 1 }
  | .resume name => { session with requests := session.requests.step (endings source) name }
  | .drop name => { session with requests := session.requests.drop name }

def run (source : Source) (events : List Event) : Session :=
  events.foldl (turn source) start

theorem run_append (source : Source) (events later : List Event) :
    run source (events ++ later) = later.foldl (turn source) (run source events) :=
  List.foldl_append

def subject (session : Session) : Event → SingleFlight.Name
  | .ask _ => session.asked
  | .resume name | .drop name => name

def stage? (session : Session) (name : SingleFlight.Name) : Option (Stage Compiled GrammarError) :=
  session.requests.callers.stage? name

def cell (session : Session) : Cell Compiled :=
  session.requests.callers.cell

def pending? (session : Session) (name : SingleFlight.Name) : Option Query :=
  session.requests.pending.lookup name

def answer? (session : Session) (name : SingleFlight.Name) : Option Answered :=
  session.requests.answers.lookup name

theorem frame_turn (source : Source) (session : Session) (event : Event) {name : SingleFlight.Name}
    (apart : name ≠ session.subject event) :
    (session.turn source event).pending? name = session.pending? name ∧
      (session.turn source event).answer? name = session.answer? name := by
  unfold turn pending? answer?
  cases event with
  | ask query =>
    change name ≠ session.asked at apart
    dsimp only
    cases recalled : session.requests.memory.known? query with
    | some answer =>
      rw [Requests.ask_of_recalled recalled]
      exact ⟨rfl, Keyed.lookup_insert_of_ne apart ..⟩
    | none =>
      rw [Requests.ask_of_missing recalled, Requests.pending_conclude_of_ne apart,
        Requests.answers_conclude_of_ne apart]
      exact ⟨Keyed.lookup_insert_of_ne apart .., rfl⟩
  | resume other =>
    change name ≠ other at apart
    dsimp only
    rw [Requests.step_eq, Requests.pending_conclude_of_ne apart,
      Requests.answers_conclude_of_ne apart]
    exact ⟨rfl, rfl⟩
  | drop other => exact ⟨(Keyed.lookup_erase ..).trans (if_neg apart), rfl⟩

theorem answer?_turn (source : Source) {session : Session} {event : Event} {name : SingleFlight.Name}
    (unasked : ∀ query, event = .ask query → name ≠ session.asked)
    (ended : session.pending? name = none) :
    (session.turn source event).pending? name = none ∧
      (session.turn source event).answer? name = session.answer? name := by
  by_cases apart : name = session.subject event
  · subst apart
    cases event with
    | ask query => exact absurd rfl (unasked query rfl)
    | resume name =>
      have same : session.requests.step (endings source) name =
          session.requests.move (endings source) name := Requests.conclude_of_unasked ended
      unfold turn pending? answer?
      dsimp only
      rw [same]
      exact ⟨ended, rfl⟩
    | drop name => exact ⟨(Keyed.lookup_erase ..).trans (if_pos rfl), rfl⟩
  · obtain ⟨pending, answer⟩ := frame_turn source session event apart
    exact ⟨pending.trans ended, answer⟩

theorem asked_le_turn (source : Source) (session : Session) (event : Event) :
    session.asked ≤ (session.turn source event).asked := by
  cases event with
  | ask query => exact Nat.le_succ _
  | resume name => exact Nat.le_refl _
  | drop name => exact Nat.le_refl _

/-- Names that come after the last question are not in use, and the callers are in order. -/
structure Ordered (session : Session) : Prop where
  callers : session.requests.callers.Ordered
  unused : ∀ name, session.asked ≤ name → session.pending? name = none ∧ session.answer? name = none

theorem ordered_start : Ordered start where
  callers := Callers.ordered_empty
  unused := fun _ _ => ⟨rfl, rfl⟩

theorem ordered_conclude {requests : Requests} (ordered : requests.callers.Ordered)
    (name : SingleFlight.Name) : (requests.conclude name).callers.Ordered := by
  rcases Requests.callers_conclude requests name with same | gone
  · rw [same]
    exact ordered
  · rw [gone]
    exact ordered.forget name

theorem Ordered.turn {session : Session} (ordered : session.Ordered) (source : Source)
    (event : Event) : (session.turn source event).Ordered where
  callers := by
    unfold Session.turn
    cases event with
    | ask query =>
      dsimp only
      cases recalled : session.requests.memory.known? query with
      | some answer =>
        rw [Requests.ask_of_recalled recalled]
        exact ordered.callers
      | none =>
        rw [Requests.ask_of_missing recalled]
        exact ordered_conclude (ordered.callers.enters (Callers.enters_enter ..)) _
    | resume name =>
      refine ordered_conclude ?_ name
      exact ordered.callers.step (endings source) name
    | drop name => exact ordered.callers.drop name
  unused := by
    intro name later
    have before := ordered.unused name (Nat.le_trans (asked_le_turn source session event) later)
    have unasked : ∀ query, event = .ask query → name ≠ session.asked := by
      rintro query rfl
      exact Nat.ne_of_gt later
    obtain ⟨pending, answer⟩ := answer?_turn source unasked before.1
    exact ⟨pending, answer.trans before.2⟩

theorem foldl_keeps {source : Source} {property : Session → Prop} {kind : Event → Prop}
    (keeps : ∀ session event, kind event → property session → property (session.turn source event))
    (events : List Event) (all : ∀ event ∈ events, kind event) {session : Session}
    (now : property session) : property (events.foldl (turn source) session) := by
  induction events generalizing session with
  | nil => exact now
  | cons event rest ih =>
    exact ih (fun other member => all other (List.mem_cons_of_mem _ member))
      (keeps session event (all event (List.mem_cons_self ..)) now)

theorem ordered_run (source : Source) (events : List Event) : (run source events).Ordered :=
  @foldl_keeps source Session.Ordered (fun _ => True)
    (fun _ event _ ordered => ordered.turn source event) events (fun _ _ => trivial) start ordered_start

/-- An event leaves the cell alone, and all requests but the one that it is about. -/
structure Quiet (session : Session) (subject : SingleFlight.Name) (next : Session) : Prop where
  cell : session.cell.Kept next.cell
  others : ∀ other, other ≠ subject → next.stage? other = session.stage? other
  leads : ∀ generation load, next.stage? subject = some (.leading generation load) →
    session.stage? subject = some (.leading generation load)

theorem quiet_conclude {session : Session} {requests : Requests} {name : SingleFlight.Name}
    (quiet : Callers.Quiet session.requests.callers name requests.callers)
    (asked : SingleFlight.Name) : Quiet session name { requests := requests.conclude name, asked } where
  cell := by
    unfold cell
    rw [Requests.cell_conclude]
    exact quiet.cell
  others := by
    intro other apart
    exact (Requests.stage?_conclude_of_ne apart).trans (quiet.others other apart)
  leads := by
    intro generation load leading
    unfold stage? at leading
    rcases Requests.stage?_conclude requests name name with same | ⟨_, gone⟩
    · exact quiet.leads generation load (same ▸ leading)
    · rw [gone] at leading
      cases leading

theorem force_of_ne {query : Query} (plain : query ≠ .recompile) : query.force = false := by
  cases query with
  | recompile => exact absurd rfl plain
  | _ => rfl

/-- Only compiling again, and the leader of the running computation, do something to the cell. -/
theorem quiet_turn {source : Source} {session : Session} (ordered : session.Ordered) {event : Event}
    (occupied : session.cell.phase ≠ .idle) (plain : event ≠ .ask .recompile)
    (superseded : ∀ generation load,
      session.stage? (session.subject event) = some (.leading generation load) →
      session.cell.runs generation = false) :
    session.Quiet (session.subject event) (session.turn source event) := by
  unfold Session.turn
  cases event with
  | ask query =>
    simp only [subject] at superseded ⊢
    cases recalled : session.requests.memory.known? query with
    | some answer =>
      rw [Requests.ask_of_recalled recalled]
      exact ⟨.same, fun _ _ => rfl, fun _ _ => id⟩
    | none =>
      rw [Requests.ask_of_missing recalled]
      -- The cell is not idle and nobody insists, so the caller waits or is served.
      refine quiet_conclude (Callers.quiet_enter occupied ?_) _
      have unforced : query.force = false := force_of_ne fun same => plain (same ▸ rfl)
      exact unforced ▸ Callers.enters_enter ..
  | resume name =>
    simp only [subject] at superseded ⊢
    have quiet : Callers.Quiet session.requests.callers name
        (session.requests.callers.step (endings source) name) :=
      Callers.quiet_step occupied (ordered.callers.entered name) superseded
    exact quiet_conclude quiet _
  | drop name =>
    simp only [subject] at superseded ⊢
    have gone : session.requests.callers.drop name = session.requests.callers.forget name :=
      Callers.quiet_drop superseded
    dsimp only [Requests.drop]
    rw [gone]
    refine ⟨.same, ?_, ?_⟩
    · intro other apart
      exact (Callers.stage?_forget ..).trans (if_neg apart)
    · intro generation load leading
      rw [stage?, Callers.stage?_forget, if_pos rfl] at leading
      cases leading

end Session

end RulesAssist.Editor
