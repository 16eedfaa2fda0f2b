import RulesAssist.Proofs.SingleFlight.Generations

/-! Callers that do not insist share one value.

As long as nobody insists, a computation is started only when the cell is idle. So every load that was
started has failed, has lost its leader, or is the one that the cell runs or keeps; and the first value
is the only one.
-/

set_option autoImplicit false

namespace RulesAssist.SingleFlight

variable {Value Failure : Type}

def Event.insists : Event Value Failure → Bool
  | .call force => force
  | _ => false

namespace Stage

variable {stage : Stage Value Failure} {outcome : Except Failure Value}

def Has (outcome : Except Failure Value) : Stage Value Failure → Prop
  | .waiting _ (.outcome reached) | .done reached => reached = outcome
  | _ => False

theorem Has.deliver (has : stage.Has outcome) (called : List Ticket) (mail : Mail Value Failure) :
    stage.deliver called mail = stage := by
  unfold Stage.deliver
  split
  · cases has
  · rfl

theorem Has.knocks? (has : stage.Has outcome) : stage.knocks? = none := by
  cases stage with
  | created force => cases has
  | leading generation load => cases has
  | done reached => rfl
  | waiting ticket mail =>
    cases mail with
    | outcome reached => rfl
    | none => cases has
    | closed => cases has

theorem eq_created_of_knocks (insists : stage.knocks? = some true) : stage = .created true := by
  cases stage with
  | created force =>
    cases insists
    rfl
  | waiting ticket mail => cases mail <;> cases insists
  | leading generation load => cases insists
  | done outcome => cases insists

end Stage

namespace Phase

/-- One if there is a computation that runs or has left its value, and nothing otherwise. -/
def occupancy (phase : Phase Value) : Nat := (phase.isRunning || phase.value?.isSome).toNat

def after : Option (Except Failure Value) → Phase Value
  | some (.ok value) => .ready value
  | _ => .idle

theorem value?_eq_some {phase : Phase Value} {value : Value} :
    phase.value? = some value ↔ phase = .ready value := by
  cases phase <;> simp [value?]

end Phase

namespace Cell

theorem phase_settle (cell : Cell Value) (outcome : Except Failure Value) :
    (cell.settle outcome).phase = .after (some outcome) := by
  cases outcome <;> rfl

theorem runs_inj {cell : Cell Value} {generation number : Nat}
    (runs : cell.runs generation = true) (also : cell.runs number = true) : generation = number := by
  obtain ⟨waiters, phase⟩ := runs_iff.mp runs
  obtain ⟨others, same⟩ := runs_iff.mp also
  rw [phase, Phase.running.injEq] at same
  exact same.1

theorem Kept.generation {cell next : Cell Value} (kept : cell.Kept next) :
    next.generation = cell.generation := by
  cases kept <;> rfl

theorem Kept.occupancy {cell next : Cell Value} (kept : cell.Kept next) :
    next.phase.occupancy = cell.phase.occupancy := by
  cases kept with
  | same => rfl
  | joined ticket running =>
    rw [running]
    rfl

end Cell

theorem Callers.Enters.others {callers next : Callers Value Failure} {name other : Name}
    {force : Bool} (enters : Callers.Enters callers name force next) (apart : other ≠ name) :
    next.stage? other = callers.stage? other := by
  cases enters <;> exact (Callers.stage?_set ..).trans (if_neg apart)

namespace Crowd

variable {crowd next : Crowd Value Failure} {name : Name}

def failures (crowd : Crowd Value Failure) : Nat :=
  crowd.past.countP fun
    | (_, some (.error _)) => true
    | _ => false

/-- How many leaders were dropped before their load had ended. -/
def losses (crowd : Crowd Value Failure) : Nat := crowd.past.countP (·.2.isNone)

/-- What holds while nobody insists. -/
structure Calm (crowd : Crowd Value Failure) : Prop where
  meek : ∀ name, crowd.callers.stage? name ≠ some (.created true)
  current : ∀ name generation load,
    crowd.callers.stage? name = some (.leading generation load) →
    crowd.callers.cell.runs generation = true
  only : ∀ generation value, crowd.brought? generation = some (.ok value) →
    generation = crowd.callers.cell.generation ∧ crowd.callers.cell.phase = .ready value
  counted : crowd.callers.loads = crowd.failures + crowd.losses + crowd.callers.cell.phase.occupancy

theorem calm_start : (start : Crowd Value Failure).Calm := ⟨nofun, nofun, nofun, rfl⟩

theorem Calm.barren (calm : crowd.Calm) (vacant : crowd.callers.cell.phase.value? = none)
    (generation : Nat) (value : Value) : crowd.brought? generation ≠ some (.ok value) := by
  intro bears
  rw [(calm.only generation value bears).2] at vacant
  cases vacant

theorem Calm.of_kept (calm : crowd.Calm) (kept : crowd.callers.cell.Kept next.callers.cell)
    (past : next.past = crowd.past) (loads : next.callers.loads = crowd.callers.loads)
    (meek : ∀ other, next.callers.stage? other = some (.created true) →
      crowd.callers.stage? other = some (.created true))
    (fewer : ∀ other number load, next.callers.stage? other = some (.leading number load) →
      crowd.callers.stage? other = some (.leading number load)) : next.Calm where
  meek := fun other created => calm.meek other (meek other created)
  current := by
    intro other number load leading
    rw [kept.runs]
    exact calm.current other number load (fewer other number load leading)
  only := by
    intro number value bears
    rw [brought?_congr past] at bears
    obtain ⟨newest, ready⟩ := calm.only number value bears
    rw [kept.generation]
    exact ⟨newest, kept.ready ready⟩
  counted := by
    unfold failures losses
    rw [loads, past, kept.occupancy]
    exact calm.counted

theorem Calm.of_close (calm : crowd.Calm) {generation : Nat} {ending : Option (Except Failure Value)}
    (runs : crowd.callers.cell.runs generation = true)
    (newest : next.callers.cell.generation = generation)
    (past : next.past = (generation, ending) :: crowd.past)
    (loads : next.callers.loads = crowd.callers.loads)
    (phase : next.callers.cell.phase = .after ending)
    (meek : ∀ other, next.callers.stage? other = some (.created true) →
      crowd.callers.stage? other = some (.created true))
    (none : ∀ other number load, next.callers.stage? other ≠ some (.leading number load)) :
    next.Calm where
  meek := fun other created => calm.meek other (meek other created)
  current := fun other number load leading => absurd leading (none other number load)
  only := by
    obtain ⟨waiters, running⟩ := Cell.runs_iff.mp runs
    intro number value bears
    unfold brought? at bears
    rw [past, Keyed.lookup_cons] at bears
    split at bears
    · rename_i same
      subst same
      change ending = some (.ok value) at bears
      subst bears
      exact ⟨newest.symm, phase⟩
    · refine absurd bears (calm.barren ?_ number value)
      rw [running]
      rfl
  counted := by
    obtain ⟨waiters, running⟩ := Cell.runs_iff.mp runs
    have counted := calm.counted
    unfold failures losses at counted ⊢
    rw [running] at counted
    rw [loads, past, phase, counted, List.countP_cons, List.countP_cons]
    cases ending with
    | none => rfl
    | some outcome =>
      cases outcome with
      | ok value => rfl
      | error failure =>
        simp only [Phase.occupancy, Phase.after, Phase.isRunning, Phase.value?]
        simp
        omega

theorem Calm.enters (calm : crowd.Calm) {entered : Callers Value Failure}
    (enters : Callers.Enters crowd.callers name false entered) :
    Calm { crowd with callers := entered } := by
  cases enters with
  | served ready =>
    exact calm.of_kept .same rfl rfl (fun _ created => (Callers.stood_of_set created nofun).2)
      fun _ _ _ leading => (Callers.stood_of_set leading nofun).2
  | queued running =>
    exact calm.of_kept (.joined _ running) rfl rfl
      (fun _ created => (Callers.stood_of_set created nofun).2)
      fun _ _ _ leading => (Callers.stood_of_set leading nofun).2
  | leads allowed =>
    have idle : crowd.callers.cell.phase = .idle := allowed.resolve_left nofun
    refine ⟨?_, ?_, ?_, ?_⟩
    · exact fun other created => calm.meek other (Callers.stood_of_set created nofun).2
    · intro other number load leading
      obtain ⟨_, same⟩ | ⟨_, led⟩ := Callers.stage?_of_set leading
      · cases same
        exact Cell.runs_iff.mpr ⟨_, rfl⟩
      · exact absurd idle (Cell.occupied_of_runs (calm.current other number load led))
    · intro number value bears
      refine absurd bears (calm.barren ?_ number value)
      rw [idle]
      rfl
    · have counted := calm.counted
      rw [idle] at counted
      change crowd.callers.loads + 1 = _
      rw [counted]
      rfl

theorem Calm.alone (calm : crowd.Calm) (led : crowd.callers.Led) {generation load : Nat}
    (leading : crowd.callers.stage? name = some (.leading generation load)) {other : Name}
    (apart : other ≠ name) (number last : Nat) :
    crowd.callers.stage? other ≠ some (.leading number last) := by
  intro leads
  have same : generation = number :=
    Cell.runs_inj (calm.current _ _ _ leading) (calm.current _ _ _ leads)
  subst same
  exact apart (led.single other name generation last load leads leading)

theorem Calm.turn (calm : crowd.Calm) (attended : crowd.Attended) (event : Event Value Failure)
    (mild : event.insists = false) : (crowd.turn event).Calm := by
  obtain ⟨led, _, _⟩ := attended
  have turns := turns_turn crowd event
  generalize crowd.turn event = next at turns ⊢
  -- What runs is the newest computation.
  have newest : ∀ {generation}, crowd.callers.cell.runs generation = true →
      crowd.callers.cell.generation = generation := by
    intro generation runs
    obtain ⟨waiters, running⟩ := Cell.runs_iff.mp runs
    exact (led.running generation waiters running).1.symm
  cases turns with
  | called force =>
    change force = false at mild
    subst mild
    exact calm.of_kept .same rfl rfl (fun _ created => (Callers.stood_of_set created nofun).2)
      fun _ _ _ leading => (Callers.stood_of_set leading nofun).2
  | @entered name _ stage force _ found knocks enters =>
    -- Nobody who insists has come.
    have humble : force = false := by
      cases force with
      | false => rfl
      | true =>
        rw [Stage.eq_created_of_knocks knocks] at found
        exact absurd found (calm.meek name)
    subst humble
    exact calm.enters enters
  | told found =>
    exact calm.of_kept .same rfl rfl (fun _ created => (Callers.stood_of_set created nofun).2)
      fun _ _ _ leading => (Callers.stood_of_set leading nofun).2
  | @settled name _ _ outcome leading runs =>
    refine calm.of_close runs (newest runs) rfl rfl (Cell.phase_settle _ outcome) ?_ ?_
    · intro other created
      exact Callers.stood_of_deliver (Callers.stood_of_set created nofun).2 nofun
    · intro other number last leads
      obtain ⟨apart, led'⟩ := Callers.stood_of_set leads nofun
      exact calm.alone led leading apart number last (Callers.stood_of_deliver led' nofun)
  | superseded leading stale =>
    rw [calm.current _ _ _ leading] at stale
    cases stale
  | rested => exact calm
  | abandoned leading runs =>
    refine calm.of_close runs (newest runs) rfl rfl rfl ?_ ?_
    · intro other created
      exact Callers.stood_of_deliver (Callers.stage?_of_forget created).2 nofun
    · intro other number last leads
      obtain ⟨apart, led'⟩ := Callers.stage?_of_forget leads
      exact calm.alone led leading apart number last (Callers.stood_of_deliver led' nofun)
  | withdrawn leading stale =>
    rw [calm.current _ _ _ leading] at stale
    cases stale
  | left idle =>
    exact calm.of_kept .same rfl rfl (fun _ created => (Callers.stage?_of_forget created).2)
      fun _ _ _ leading => (Callers.stage?_of_forget leading).2

theorem calm_run (events : List (Event Value Failure))
    (mild : ∀ event ∈ events, event.insists = false) : (run events).Calm :=
  @append_keeps Value Failure Calm (fun event => event.insists = false)
    (fun attended _ mild calm => calm.turn attended _ mild) [] events mild calm_start

/-- Everything that has reached anybody was brought by some generation. -/
theorem since_run (events : List (Event Value Failure)) (name : Name) :
    (run events).callers.Since (run events).brought? 0 name :=
  @since_append Value Failure name [] 0 ⟨Nat.le_refl 0, nofun⟩ events

theorem brought?_append (events later : List (Event Value Failure)) {generation : Nat}
    {outcome : Except Failure Value} (bears : (run events).brought? generation = some outcome) :
    (run (events ++ later)).brought? generation = some outcome :=
  append_keeps (fun crowd => crowd.brought? generation = some outcome) (fun _ => True)
    (fun _ traced _ bears => traced.brought?_turn _ bears) (fun _ _ => trivial) bears

theorem stage?_turn_of_has (named : crowd.callers.Named crowd.came)
    {stage : Stage Value Failure} {outcome : Except Failure Value}
    (found : crowd.callers.stage? name = some stage) (has : stage.Has outcome)
    {event : Event Value Failure} (stays : event ≠ .drop name) :
    (crowd.turn event).callers.stage? name = some stage ∨
      (crowd.turn event).callers.stage? name = some (.done outcome) := by
  -- An event about another caller does not move this one, and a call that reaches it finds it informed.
  have beside : ∀ {subject : Name} {other : Stage Value Failure},
      crowd.callers.stage? subject = some other → ¬ other.Has outcome → name ≠ subject := by
    rintro subject other stands without rfl
    rw [found, Option.some.injEq] at stands
    exact without (stands ▸ has)
  have delivered : ∀ {cell called mail},
      ({ crowd.callers with cell }.deliver called mail).stage? name = some stage := by
    intro cell called mail
    refine (Callers.stage?_deliver ..).trans ?_
    change (crowd.callers.stage? name).map _ = _
    rw [found, Option.map_some, has.deliver]
  have turns := turns_turn crowd event
  generalize crowd.turn event = next at turns ⊢
  cases turns with
  | called force =>
    have apart : name ≠ crowd.came := Nat.ne_of_lt (named name stage found)
    exact .inl ((Callers.stage?_set ..).trans ((if_neg apart).trans found))
  | entered stands knocks enters =>
    refine .inl ((enters.others (beside stands ?_)).trans found)
    intro informed
    rw [informed.knocks?] at knocks
    cases knocks
  | @told subject _ ticket reached stands =>
    by_cases same : name = subject
    · subst same
      rw [found, Option.some.injEq] at stands
      subst stands
      cases has
      exact .inr ((Callers.stage?_set ..).trans (if_pos rfl))
    · exact .inl ((Callers.stage?_set ..).trans ((if_neg same).trans found))
  | settled leading runs =>
    exact .inl ((Callers.stage?_set ..).trans ((if_neg (beside leading id)).trans delivered))
  | superseded leading stale =>
    exact .inl ((Callers.stage?_set ..).trans ((if_neg (beside leading id)).trans found))
  | rested => exact .inl found
  | @abandoned subject _ _ leading runs =>
    have apart : name ≠ subject := fun same => stays (congrArg Event.drop same.symm)
    exact .inl ((Callers.stage?_forget ..).trans ((if_neg apart).trans delivered))
  | @withdrawn subject _ _ leading stale =>
    have apart : name ≠ subject := fun same => stays (congrArg Event.drop same.symm)
    exact .inl ((Callers.stage?_forget ..).trans ((if_neg apart).trans found))
  | @left subject idle =>
    have apart : name ≠ subject := fun same => stays (congrArg Event.drop same.symm)
    exact .inl ((Callers.stage?_forget ..).trans ((if_neg apart).trans found))

theorem stage?_append_of_has {events later : List (Event Value Failure)}
    {stage : Stage Value Failure} {outcome : Except Failure Value}
    (found : (run events).callers.stage? name = some stage) (has : stage.Has outcome)
    (stays : .drop name ∉ later) :
    (run (events ++ later)).callers.stage? name = some stage ∨
      (run (events ++ later)).callers.stage? name = some (.done outcome) := by
  refine append_keeps (fun crowd => crowd.callers.stage? name = some stage ∨
    crowd.callers.stage? name = some (.done outcome)) (· ≠ .drop name) ?_ ?_ (.inl found)
  · rintro crowd event attended _ stays (kept | noted)
    · exact stage?_turn_of_has attended.named kept has stays
    · have done : (Stage.done outcome).Has outcome := rfl
      exact .inr ((stage?_turn_of_has attended.named noted done stays).elim id id)
  · rintro event member rfl
    exact stays member

theorem resume_of_has {stage : Stage Value Failure} {outcome : Except Failure Value}
    (found : crowd.callers.stage? name = some stage) (has : stage.Has outcome)
    (ending : Option (Except Failure Value)) :
    (crowd.turn (.resume name ending)).callers.stage? name = some (.done outcome) := by
  refine Callers.step_of_prospect found ?_
  cases stage with
  | created force => cases has
  | leading generation load => cases has
  | done reached => exact congrArg some has
  | waiting ticket mail =>
    cases mail with
    | outcome reached => exact congrArg some has
    | none => cases has
    | closed => cases has

theorem done_of_has {events later : List (Event Value Failure)} {stage : Stage Value Failure}
    {outcome : Except Failure Value} (found : (run events).callers.stage? name = some stage)
    (has : stage.Has outcome) (stays : .drop name ∉ later)
    {ending : Option (Except Failure Value)} (goes : .resume name ending ∈ later) :
    (run (events ++ later)).callers.stage? name = some (.done outcome) := by
  obtain ⟨before, after, rfl⟩ := List.append_of_mem goes
  rw [List.mem_append, List.mem_cons, not_or, not_or] at stays
  have done : (run (events ++ before ++ [.resume name ending])).callers.stage? name =
      some (.done outcome) := by
    rw [run_concat]
    obtain kept | noted := stage?_append_of_has found has stays.1
    · exact resume_of_has kept has ending
    · exact resume_of_has noted rfl ending
  have still := stage?_append_of_has done rfl stays.2.2
  rw [List.append_cons, ← List.append_assoc, ← List.append_assoc]
  exact still.elim id id

/-- Whoever waits for the running computation gets the outcome of its leader. -/
theorem stage?_resume_leader (listed : crowd.callers.Listed) {leader : Name}
    {generation load ticket : Nat}
    (leading : crowd.callers.stage? leader = some (.leading generation load))
    (runs : crowd.callers.cell.runs generation = true)
    (waiting : crowd.callers.stage? name = some (.waiting ticket .none))
    (outcome : Except Failure Value) :
    (crowd.turn (.resume leader (some outcome))).callers.stage? name =
      some (.waiting ticket (.outcome outcome)) := by
  have apart : name ≠ leader := by
    rintro rfl
    rw [waiting] at leading
    cases leading
  have member := (listed.listed name ticket _ waiting).mp rfl
  have ended : (crowd.turn (.resume leader (some outcome))).callers =
      crowd.callers.finish leader generation outcome := by
    simp [turn, Callers.step, leading]
  rw [ended, Callers.finish_of_runs runs, Callers.stage?_set, if_neg apart, Callers.stage?_deliver]
  change (crowd.callers.stage? name).map _ = _
  rw [waiting]
  simp [Stage.deliver, member]

/-- As long as nobody insists, all who get a value get the same one, which stays in the cell from then on
and was brought by one load. The loads that were started are those that failed, those that lost their
leader, and the one that the cell runs or keeps. When the load fails, everybody who waits for it and is
not dropped ends with that failure. -/
theorem unforced_callers_agree (events : List (Event Value Failure))
    (mild : ∀ event ∈ events, event.insists = false) :
    (∀ later, (∀ event ∈ later, event.insists = false) → ∀ name value,
      (run events).callers.stage? name = some (.done (.ok value)) →
      (run (events ++ later)).callers.cell.phase.value? = some value ∧
        ∀ other last, (run (events ++ later)).callers.stage? other = some (.done (.ok last)) →
          last = value) ∧
    (∃ generation, ∀ name value, (run events).callers.stage? name = some (.done (.ok value)) →
      (run events).brought? generation = some (.ok value) ∧
        ∀ number last, (run events).brought? number = some (.ok last) → number = generation) ∧
    (run events).callers.loads =
      (run events).failures + (run events).losses + (run events).callers.cell.phase.occupancy ∧
    ∀ leader generation load name ticket failure later,
      (run events).callers.stage? leader = some (.leading generation load) →
      (run events).callers.stage? name = some (.waiting ticket .none) →
      .drop name ∉ later →
      ((run (events ++ .resume leader (some (.error failure)) :: later)).callers.stage? name =
          some (.waiting ticket (.outcome (.error failure))) ∨
        (run (events ++ .resume leader (some (.error failure)) :: later)).callers.stage? name =
          some (.done (.error failure))) ∧
      ∀ ending, .resume name ending ∈ later →
        (run (events ++ .resume leader (some (.error failure)) :: later)).callers.stage? name =
          some (.done (.error failure)) := by
  have calm := calm_run events mild
  refine ⟨?_, ?_, calm.counted, ?_⟩
  · intro later quiet name value done
    have calmer : (run (events ++ later)).Calm := by
      refine calm_run (events ++ later) fun event member => ?_
      exact (List.mem_append.mp member).elim (mild event) (quiet event)
    obtain ⟨generation, _, bears⟩ := (since_run events name).stems _ done
    have ready := (calmer.only generation value (brought?_append events later bears)).2
    refine ⟨Phase.value?_eq_some.mpr ready, ?_⟩
    intro other last finished
    obtain ⟨number, _, brings⟩ := (since_run (events ++ later) other).stems _ finished
    have kept := (calmer.only number last brings).2
    rw [ready, Phase.ready.injEq] at kept
    exact kept.symm
  · refine ⟨(run events).callers.cell.generation, ?_⟩
    intro name value done
    obtain ⟨generation, _, bears⟩ := (since_run events name).stems _ done
    have newest := (calm.only generation value bears).1
    exact ⟨newest ▸ bears, fun number last brings => (calm.only number last brings).1⟩
  · intro leader generation load name ticket failure later leading waiting stays
    have told : (run (events ++ [.resume leader (some (.error failure))])).callers.stage? name =
        some (.waiting ticket (.outcome (.error failure))) := by
      rw [run_concat]
      exact stage?_resume_leader (attended_run events).listed leading
        (calm.current leader generation load leading) waiting (.error failure)
    rw [List.append_cons]
    exact ⟨stage?_append_of_has told rfl stays, fun ending goes => done_of_has told rfl stays goes⟩

def gathering : List (Event Nat Unit) := [.call false, .resume 0 none, .call false, .resume 1 none]

/-- The load fails, the leader of the next one is dropped, and who waited for it takes over. -/
def rounds : List (Event Nat Unit) :=
  gathering ++ .resume 0 (some (.error ())) ::
    [.resume 1 none, .call false, .resume 2 none, .call false, .resume 3 none, .drop 2,
      .resume 3 none, .resume 3 (some (.ok 7))]

theorem unforced_callers_agree_rounds :
    (∀ event ∈ rounds, event.insists = false) ∧
      (run rounds).callers.stage? 3 = some (.done (.ok 7)) ∧
      (run (rounds ++ [.call false, .resume 4 none])).callers.cell.phase.value? = some 7 ∧
      (run rounds).callers.loads = 1 + 1 + 1 ∧
      (run rounds).callers.stage? 1 = some (.done (.error ())) := by
  have mild : ∀ event ∈ rounds, event.insists = false := by decide
  obtain ⟨shared, _, counted, _⟩ := unforced_callers_agree rounds mild
  obtain ⟨_, _, _, told⟩ := unforced_callers_agree gathering (by decide)
  refine ⟨mild, rfl, ?_, counted, ?_⟩
  · exact (shared [.call false, .resume 4 none] (by decide) 3 7 rfl).1
  · refine (told 0 1 0 1 0 () _ rfl rfl ?_).2 none (List.mem_cons_self ..)
    simp

end Crowd

end RulesAssist.SingleFlight
