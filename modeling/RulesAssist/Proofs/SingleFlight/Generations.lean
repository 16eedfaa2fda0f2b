import RulesAssist.Proofs.SingleFlight.Attendance

/-! Which generation an outcome comes from.

Every generation brings at most one outcome. What is in the cell was brought by the newest generation,
and a forced caller cuts off all older ones: whoever has no outcome when it enters gets none from before.
-/

set_option autoImplicit false

namespace RulesAssist.SingleFlight

variable {Value Failure : Type}

namespace Stage

def isOpen : Stage Value Failure → Bool
  | .created _ | .waiting _ .none | .waiting _ .closed => true
  | _ => false

/-- Whatever the caller has got, or will bring itself, stems from a generation that is not older than
the first one. -/
def From (brought : Nat → Option (Except Failure Value)) (first : Nat) : Stage Value Failure → Prop
  | .waiting _ (.outcome outcome) | .done outcome =>
    ∃ generation, first ≤ generation ∧ brought generation = some outcome
  | .leading generation _ => first ≤ generation
  | _ => True

theorem from_of_isOpen {stage : Stage Value Failure} (unheard : stage.isOpen = true)
    (brought : Nat → Option (Except Failure Value)) (first : Nat) : stage.From brought first := by
  cases stage with
  | created force => trivial
  | waiting ticket mail =>
    cases mail with
    | none => trivial
    | closed => trivial
    | outcome outcome => cases unheard
  | leading generation load => cases unheard
  | done outcome => cases unheard

variable {brought wider : Nat → Option (Except Failure Value)} {first : Nat}
  {stage : Stage Value Failure}

theorem From.mono (grows : ∀ generation outcome, brought generation = some outcome →
      wider generation = some outcome) (holds : stage.From brought first) :
    stage.From wider first := by
  cases stage with
  | created force => trivial
  | waiting ticket mail =>
    cases mail with
    | none => trivial
    | closed => trivial
    | outcome outcome =>
      obtain ⟨generation, newer, bears⟩ := holds
      exact ⟨generation, newer, grows generation outcome bears⟩
  | leading generation load => exact holds
  | done outcome =>
    obtain ⟨generation, newer, bears⟩ := holds
    exact ⟨generation, newer, grows generation outcome bears⟩

theorem From.deliver (holds : stage.From brought first) {mail : Mail Value Failure}
    (sent : ∀ ticket, (waiting ticket mail : Stage Value Failure).From brought first)
    (called : List Ticket) : (stage.deliver called mail).From brought first := by
  unfold Stage.deliver
  split
  · split
    · exact sent _
    · exact holds
  · exact holds

end Stage

namespace Callers

/-- The newest generation is not older than the first one, and neither is that of anything that the
caller has got or will bring. -/
structure Since (callers : Callers Value Failure) (brought : Nat → Option (Except Failure Value))
    (first : Nat) (name : Name) : Prop where
  newest : first ≤ callers.cell.generation
  stems : ∀ stage, callers.stage? name = some stage → stage.From brought first

namespace Since

variable {callers : Callers Value Failure} {brought wider : Nat → Option (Except Failure Value)}
  {first : Nat} {name : Name}

theorem mono (since : callers.Since brought first name)
    (grows : ∀ generation outcome, brought generation = some outcome →
      wider generation = some outcome) : callers.Since wider first name :=
  ⟨since.newest, fun stage found => (since.stems stage found).mono grows⟩

theorem of_cell (since : callers.Since brought first name) {cell : Cell Value}
    (newer : callers.cell.generation ≤ cell.generation) (tickets loads : Nat) :
    Since { callers with cell, tickets, loads } brought first name :=
  ⟨Nat.le_trans since.newest newer, since.stems⟩

theorem set (since : callers.Since brought first name) {subject : Name}
    {stage : Stage Value Failure} (stems : subject = name → stage.From brought first) :
    (callers.set subject stage).Since brought first name where
  newest := since.newest
  stems := by
    intro found stands
    obtain ⟨same, rfl⟩ | ⟨_, stood⟩ := stage?_of_set stands
    · exact stems same.symm
    · exact since.stems found stood

theorem forget (since : callers.Since brought first name) (subject : Name) :
    (callers.forget subject).Since brought first name :=
  ⟨since.newest, fun found stands => since.stems found (stage?_of_forget stands).2⟩

theorem deliver (since : callers.Since brought first name) {mail : Mail Value Failure}
    (sent : ∀ ticket, (Stage.waiting ticket mail).From brought first) (called : List Ticket) :
    (callers.deliver called mail).Since brought first name where
  newest := since.newest
  stems := by
    intro found stands
    obtain ⟨before, stood, rfl⟩ := stage?_of_deliver stands
    exact (since.stems before stood).deliver sent called

theorem enters (since : callers.Since brought first name)
    (ready : ∀ value, callers.cell.phase = .ready value →
      brought callers.cell.generation = some (.ok value)) {subject : Name} {force : Bool}
    {next : Callers Value Failure} (enters : Enters callers subject force next) :
    next.Since brought first name := by
  cases enters with
  | served phase => exact since.set fun _ => ⟨_, since.newest, ready _ phase⟩
  | queued phase =>
    refine (since.of_cell ?_ _ _).set ?_
    · exact Nat.le_refl _
    · exact fun _ => trivial
  | leads allowed =>
    refine (since.of_cell ?_ _ _).set ?_
    · exact Nat.le_succ _
    · exact fun _ => Nat.le_succ_of_le since.newest

end Since

end Callers

namespace Crowd

def brought? (crowd : Crowd Value Failure) (generation : Nat) : Option (Except Failure Value) :=
  (crowd.past.lookup generation).join

/-- A generation is over when its leader is gone, and not before. What is in the cell is what the newest
generation has brought. -/
structure Traced (crowd : Crowd Value Failure) : Prop where
  underWay : ∀ name generation load,
    crowd.callers.stage? name = some (.leading generation load) →
    crowd.past.lookup generation = none
  ahead : ∀ generation, crowd.callers.cell.generation < generation →
    crowd.past.lookup generation = none
  ready : ∀ value, crowd.callers.cell.phase = .ready value →
    crowd.brought? crowd.callers.cell.generation = some (.ok value)

theorem traced_start : (start : Crowd Value Failure).Traced := ⟨nofun, fun _ _ => rfl, nofun⟩

variable {crowd next : Crowd Value Failure} {name : Name}

theorem brought?_congr (past : next.past = crowd.past) : next.brought? = crowd.brought? := by
  funext generation
  unfold brought?
  rw [past]

theorem brought?_close {generation : Nat} {ending : Option (Except Failure Value)}
    (new : crowd.past.lookup generation = none) (past : next.past = (generation, ending) :: crowd.past)
    {number : Nat} {outcome : Except Failure Value} (bears : crowd.brought? number = some outcome) :
    next.brought? number = some outcome := by
  unfold brought? at bears ⊢
  rw [past, Keyed.lookup_cons, if_neg]
  · exact bears
  · rintro rfl
    rw [new] at bears
    cases bears

theorem brought?_close_self {generation : Nat} {ending : Option (Except Failure Value)}
    (past : next.past = (generation, ending) :: crowd.past) : next.brought? generation = ending := by
  unfold brought?
  rw [past, Keyed.lookup_cons, if_pos rfl]
  rfl

theorem Traced.of_fewer (traced : crowd.Traced) (past : next.past = crowd.past)
    (generation : next.callers.cell.generation = crowd.callers.cell.generation)
    (fewer : ∀ other number load, next.callers.stage? other = some (.leading number load) →
      crowd.callers.stage? other = some (.leading number load))
    (ready : ∀ value, next.callers.cell.phase = .ready value →
      crowd.callers.cell.phase = .ready value) : next.Traced where
  underWay := by
    intro other number load leading
    rw [past]
    exact traced.underWay other number load (fewer other number load leading)
  ahead := by
    rw [past, generation]
    exact traced.ahead
  ready := by
    intro value phase
    rw [brought?_congr past, generation]
    exact traced.ready value (ready value phase)

theorem Traced.of_close (traced : crowd.Traced) {generation load : Nat}
    {ending : Option (Except Failure Value)} (older : generation ≤ crowd.callers.cell.generation)
    (leading : crowd.callers.stage? name = some (.leading generation load))
    (past : next.past = (generation, ending) :: crowd.past)
    (same : next.callers.cell.generation = crowd.callers.cell.generation)
    (fewer : ∀ other number last, next.callers.stage? other = some (.leading number last) →
      number ≠ generation ∧ crowd.callers.stage? other = some (.leading number last))
    (ready : ∀ value, next.callers.cell.phase = .ready value →
      crowd.callers.cell.phase = .ready value ∨
        generation = crowd.callers.cell.generation ∧ ending = some (.ok value)) : next.Traced where
  underWay := by
    intro other number last leads
    obtain ⟨apart, led⟩ := fewer other number last leads
    rw [past, Keyed.lookup_cons, if_neg apart]
    exact traced.underWay other number last led
  ahead := by
    intro number newer
    rw [same] at newer
    rw [past, Keyed.lookup_cons, if_neg (by omega)]
    exact traced.ahead number newer
  ready := by
    intro value phase
    rw [same]
    obtain before | ⟨newest, brings⟩ := ready value phase
    · exact brought?_close (traced.underWay _ _ _ leading) past (traced.ready value before)
    · rw [← newest, brought?_close_self past, brings]

theorem Traced.enters (traced : crowd.Traced) {force : Bool} {entered : Callers Value Failure}
    (enters : Callers.Enters crowd.callers name force entered) :
    Traced { crowd with callers := entered } := by
  cases enters with
  | served ready =>
    exact traced.of_fewer rfl rfl (fun _ _ _ leading => (Callers.stood_of_set leading nofun).2)
      fun _ => id
  | queued phase =>
    exact traced.of_fewer rfl rfl (fun _ _ _ leading => (Callers.stood_of_set leading nofun).2)
      nofun
  | leads allowed =>
    refine ⟨?_, ?_, nofun⟩
    · intro other number load leading
      obtain ⟨_, same⟩ | ⟨_, leads⟩ := Callers.stage?_of_set leading
      · -- The new generation comes after all that are over.
        cases same
        exact traced.ahead _ (Nat.lt_succ_self _)
      · exact traced.underWay other number load leads
    · intro number newer
      exact traced.ahead number (Nat.lt_of_succ_lt newer)

theorem Traced.turn (traced : crowd.Traced) (attended : crowd.Attended)
    (event : Event Value Failure) : (crowd.turn event).Traced := by
  obtain ⟨led, _, _⟩ := attended
  have turns := turns_turn crowd event
  generalize crowd.turn event = next at turns ⊢
  -- Whoever leads beside the caller whose lead ends leads another generation.
  have others : ∀ {name other generation load number last}, other ≠ name →
      crowd.callers.stage? name = some (.leading generation load) →
      crowd.callers.stage? other = some (.leading number last) →
      number ≠ generation ∧ crowd.callers.stage? other = some (.leading number last) := by
    rintro name other generation load number last apart leading leads
    refine ⟨?_, leads⟩
    rintro rfl
    exact apart (led.single other name number last load leads leading)
  cases turns with
  | called force =>
    exact traced.of_fewer rfl rfl (fun _ _ _ leading => (Callers.stood_of_set leading nofun).2)
      fun _ => id
  | entered found knocks enters => exact traced.enters enters
  | told found =>
    exact traced.of_fewer rfl rfl (fun _ _ _ leading => (Callers.stood_of_set leading nofun).2)
      fun _ => id
  | @settled name generation load outcome leading runs =>
    refine traced.of_close (led.older _ _ _ leading) leading rfl rfl ?_ ?_
    · intro other number last leads
      obtain ⟨apart, was⟩ := Callers.stood_of_set leads nofun
      exact others apart leading (Callers.stood_of_deliver was nofun)
    · intro value phase
      obtain ⟨waiters, running⟩ := Cell.runs_iff.mp runs
      exact .inr ⟨(led.running generation waiters running).1,
        congrArg some (Cell.ok_of_settle phase)⟩
  | superseded leading stale =>
    refine traced.of_close (led.older _ _ _ leading) leading rfl rfl ?_ fun _ => .inl
    intro other number last leads
    obtain ⟨apart, was⟩ := Callers.stood_of_set leads nofun
    exact others apart leading was
  | rested => exact traced
  | abandoned leading runs =>
    refine traced.of_close (led.older _ _ _ leading) leading rfl rfl ?_ nofun
    intro other number last leads
    obtain ⟨apart, was⟩ := Callers.stage?_of_forget leads
    exact others apart leading (Callers.stood_of_deliver was nofun)
  | withdrawn leading stale =>
    refine traced.of_close (led.older _ _ _ leading) leading rfl rfl ?_ fun _ => .inl
    intro other number last leads
    obtain ⟨apart, was⟩ := Callers.stage?_of_forget leads
    exact others apart leading was
  | left idle =>
    exact traced.of_fewer rfl rfl (fun _ _ _ leading => (Callers.stage?_of_forget leading).2)
      fun _ => id

theorem traced_run (events : List (Event Value Failure)) : (run events).Traced :=
  (@run_induction Value Failure (fun crowd => crowd.Attended ∧ crowd.Traced)
    ⟨attended_start, traced_start⟩
    (fun _ event now => ⟨now.1.turn event, now.2.turn now.1 event⟩) events).2

theorem append_keeps (property : Crowd Value Failure → Prop) (kind : Event Value Failure → Prop)
    (keeps : ∀ {crowd event}, crowd.Attended → crowd.Traced → kind event → property crowd →
      property (crowd.turn event))
    {events later : List (Event Value Failure)} (all : ∀ event ∈ later, kind event)
    (now : property (run events)) : property (run (events ++ later)) := by
  rw [run_append]
  exact (@foldl_keeps Value Failure
    (fun crowd => crowd.Attended ∧ crowd.Traced ∧ property crowd) kind
    (fun _ event suits now =>
      ⟨now.1.turn event, now.2.1.turn now.1 event, keeps now.1 now.2.1 suits now.2.2⟩)
    later all _ ⟨attended_run events, traced_run events, now⟩).2.2

theorem Traced.brought?_turn (traced : crowd.Traced) (event : Event Value Failure)
    {generation : Nat} {outcome : Except Failure Value}
    (bears : crowd.brought? generation = some outcome) :
    (crowd.turn event).brought? generation = some outcome := by
  have turns := turns_turn crowd event
  generalize crowd.turn event = next at turns ⊢
  cases turns with
  | called _ => exact bears
  | entered _ _ _ => exact bears
  | told _ => exact bears
  | settled leading _ => exact brought?_close (traced.underWay _ _ _ leading) rfl bears
  | superseded leading _ => exact brought?_close (traced.underWay _ _ _ leading) rfl bears
  | rested => exact bears
  | abandoned leading _ => exact brought?_close (traced.underWay _ _ _ leading) rfl bears
  | withdrawn leading _ => exact brought?_close (traced.underWay _ _ _ leading) rfl bears
  | left _ => exact bears

theorem Traced.since_turn (traced : crowd.Traced) (attended : crowd.Attended) {first : Nat}
    (since : crowd.callers.Since crowd.brought? first name) (event : Event Value Failure) :
    (crowd.turn event).callers.Since (crowd.turn event).brought? first name := by
  have grown := since.mono fun _ _ => traced.brought?_turn event
  have turns := turns_turn crowd event
  generalize crowd.turn event = next at turns grown ⊢
  cases turns with
  | called force => exact grown.set fun _ => trivial
  | entered found knocks enters => exact grown.enters traced.ready enters
  | @told _ _ ticket outcome found =>
    exact grown.set fun same => grown.stems (.waiting ticket (.outcome outcome)) (same ▸ found)
  | @settled _ generation _ outcome leading runs =>
    obtain ⟨waiters, running⟩ := Cell.runs_iff.mp runs
    have newest := (attended.led.running generation waiters running).1
    have newer : first ≤ generation := newest ▸ since.newest
    refine ((grown.of_cell ?_ _ _).deliver ?_ _).set ?_
    · exact Nat.le_refl _
    · exact fun _ => ⟨generation, newer, brought?_close_self rfl⟩
    · exact fun _ => ⟨generation, newer, brought?_close_self rfl⟩
  | @superseded _ generation load outcome leading stale =>
    exact grown.set fun same =>
      ⟨generation, grown.stems (.leading generation load) (same ▸ leading), brought?_close_self rfl⟩
  | rested => exact grown
  | abandoned leading runs =>
    refine ((grown.of_cell ?_ _ _).deliver ?_ _).forget _
    · exact Nat.le_refl _
    · exact fun _ => trivial
  | withdrawn leading stale => exact grown.forget _
  | left idle => exact grown.forget _

theorem since_append {events : List (Event Value Failure)} {first : Nat}
    (since : (run events).callers.Since (run events).brought? first name)
    (later : List (Event Value Failure)) :
    (run (events ++ later)).callers.Since (run (events ++ later)).brought? first name :=
  append_keeps (fun crowd => crowd.callers.Since crowd.brought? first name) (fun _ => True)
    (fun attended traced _ since => traced.since_turn attended since _) (fun _ _ => trivial) since

/-- A forced caller starts a generation, and those who have no outcome yet stand before nothing older. -/
theorem since_of_forced {other : Name}
    (created : crowd.callers.stage? name = some (.created true))
    (unheard : ∀ stage, crowd.callers.stage? other = some stage → stage.isOpen = true)
    (ending : Option (Except Failure Value)) (brought : Nat → Option (Except Failure Value)) :
    (crowd.turn (.resume name ending)).callers.Since brought (crowd.callers.cell.generation + 1)
        other ∧
      (crowd.turn (.resume name ending)).callers.stage? name =
        some (.leading (crowd.callers.cell.generation + 1) crowd.callers.loads) := by
  have entered : (crowd.turn (.resume name ending)).callers = crowd.callers.enter name true := by
    simp [turn, Callers.step, created]
  have enters := Callers.enters_enter crowd.callers name true
  rw [entered]
  generalize crowd.callers.enter name true = next at enters ⊢
  cases enters with
  | leads _ =>
    refine ⟨⟨Nat.le_refl _, ?_⟩, (Callers.stage?_set ..).trans (if_pos rfl)⟩
    intro found stands
    obtain ⟨_, rfl⟩ | ⟨_, stood⟩ := Callers.stage?_of_set stands
    · exact Nat.le_refl _
    · exact Stage.from_of_isOpen (unheard found stood) brought _

/-- What is in the cell was brought by the newest generation. When a forced caller enters and becomes a
generation, then everybody who enters after it, or is waiting at that moment without an outcome, can only
end with an outcome of that generation or of a later one. -/
theorem forced_generation_prevails (events : List (Event Value Failure)) :
    (∀ value, (run events).callers.cell.phase = .ready value →
      (run events).brought? (run events).callers.cell.generation = some (.ok value)) ∧
    ∀ name ending generation load later,
      (run events).callers.stage? name = some (.created true) →
      (run (events ++ [.resume name ending])).callers.stage? name =
        some (.leading generation load) →
      ∀ other, (∀ stage, (run events).callers.stage? other = some stage → stage.isOpen = true) →
        ∀ outcome, (run (events ++ .resume name ending :: later)).callers.stage? other =
            some (.done outcome) →
          ∃ number, generation ≤ number ∧
            (run (events ++ .resume name ending :: later)).brought? number = some outcome := by
  refine ⟨(traced_run events).ready, ?_⟩
  intro name ending generation load later created leading other unheard outcome done
  obtain ⟨since, leads⟩ := since_of_forced created unheard ending
    ((run events).turn (.resume name ending)).brought?
  rw [run_concat, leads, Option.some.injEq, Stage.leading.injEq] at leading
  rw [leading.1, ← run_concat] at since
  rw [List.append_cons] at done ⊢
  exact (since_append since later).stems _ done

/-- One caller leads and another one waits for it, when a third one insists on a new computation. -/
def overtaking : List (Event Nat Unit) :=
  [.call false, .resume 0 none, .call false, .resume 1 none, .call true]

theorem forced_generation_prevails_overtaking :
    (run overtaking).callers.stage? 2 = some (.created true) ∧
      (run (overtaking ++ [.resume 2 none])).callers.stage? 2 = some (.leading 2 1) ∧
      (run overtaking).callers.stage? 1 = some (.waiting 0 .none) ∧
      (run (overtaking ++ .resume 2 none :: [.resume 0 (some (.ok 10)), .resume 2 (some (.ok 20)),
        .resume 1 none])).callers.stage? 1 = some (.done (.ok 20)) ∧
      ∃ number, 2 ≤ number ∧
        (run (overtaking ++ .resume 2 none :: [.resume 0 (some (.ok 10)), .resume 2 (some (.ok 20)),
          .resume 1 none])).brought? number = some (.ok 20) := by
  have waits : (run overtaking).callers.stage? 1 = some (.waiting 0 .none) := rfl
  refine ⟨rfl, rfl, waits, rfl, ?_⟩
  refine (forced_generation_prevails overtaking).2 2 none 2 1 _ rfl rfl 1 ?_ _ rfl
  intro stage found
  rw [waits, Option.some.injEq] at found
  exact found ▸ rfl

end Crowd

end RulesAssist.SingleFlight
