import RulesAssist.Proofs.SingleFlight.Crowd

/-! Nobody who waits is left alone.

While a computation runs, exactly one caller leads it, and every caller to whom nothing has come is on
its list. When the computation ends, or its leader is dropped, the list is called in full.
-/

set_option autoImplicit false

namespace RulesAssist.SingleFlight

variable {Value Failure : Type}

namespace Stage

theorem eq_waiting_of_deliver {stage : Stage Value Failure} {called : List Ticket}
    {sent mail : Mail Value Failure} {ticket : Ticket}
    (waits : stage.deliver called sent = .waiting ticket mail) :
    (stage = .waiting ticket .none ∧ ticket ∈ called ∧ mail = sent) ∨
      (stage = .waiting ticket mail ∧ (mail = .none → ticket ∉ called)) := by
  unfold deliver at waits
  split at waits
  · split at waits
    · rename_i member
      cases waits
      exact .inl ⟨rfl, member, rfl⟩
    · rename_i missing
      cases waits
      exact .inr ⟨rfl, fun _ => missing⟩
  · rename_i informed
    subst waits
    refine .inr ⟨rfl, ?_⟩
    rintro rfl
    exact absurd rfl (informed ticket)

end Stage

namespace Callers

variable {callers next : Callers Value Failure} {name : Name}

/-- No leader is newer than the cell, no two lead one generation, and the running computation has its
leader. -/
structure Led (callers : Callers Value Failure) : Prop where
  older : ∀ name generation load, callers.stage? name = some (.leading generation load) →
    generation ≤ callers.cell.generation
  single : ∀ name other generation load last,
    callers.stage? name = some (.leading generation load) →
    callers.stage? other = some (.leading generation last) → name = other
  running : ∀ generation waiters, callers.cell.phase = .running generation waiters →
    generation = callers.cell.generation ∧
      ∃ name load, callers.stage? name = some (.leading generation load)

/-- The waiters of the running computation are the callers to whom nothing has come, each with a ticket
of its own. Tickets of callers that were dropped may be among them. -/
structure Listed (callers : Callers Value Failure) : Prop where
  issued : ∀ name ticket mail, callers.stage? name = some (.waiting ticket mail) →
    ticket < callers.tickets
  own : ∀ name other ticket mail last, callers.stage? name = some (.waiting ticket mail) →
    callers.stage? other = some (.waiting ticket last) → name = other
  valid : ∀ ticket ∈ callers.cell.phase.waiters, ticket < callers.tickets
  once : callers.cell.phase.waiters.Nodup
  listed : ∀ name ticket mail, callers.stage? name = some (.waiting ticket mail) →
    (mail = .none ↔ ticket ∈ callers.cell.phase.waiters)

theorem led_empty : (empty : Callers Value Failure).Led := ⟨nofun, nofun, nofun⟩

theorem listed_empty : (empty : Callers Value Failure).Listed :=
  ⟨nofun, nofun, nofun, List.nodup_nil, nofun⟩

theorem Led.of_fewer (led : callers.Led) (generation : next.cell.generation = callers.cell.generation)
    (fewer : ∀ other number load, next.stage? other = some (.leading number load) →
      callers.stage? other = some (.leading number load))
    (kept : ∀ number, next.cell.runs number = true → callers.cell.runs number = true ∧
      ∀ other load, callers.stage? other = some (.leading number load) →
        next.stage? other = some (.leading number load)) : next.Led where
  older := by
    intro other number load leading
    rw [generation]
    exact led.older other number load (fewer other number load leading)
  single := by
    intro first second number load last leading leads
    exact led.single first second number load last (fewer _ _ _ leading) (fewer _ _ _ leads)
  running := by
    intro number waiters phase
    obtain ⟨runs, stays⟩ := kept number (Cell.runs_iff.mpr ⟨waiters, phase⟩)
    obtain ⟨before, ran⟩ := Cell.runs_iff.mp runs
    obtain ⟨newest, leader, load, leading⟩ := led.running number before ran
    rw [generation]
    exact ⟨newest, leader, load, stays leader load leading⟩

theorem Led.of_cell (led : callers.Led) {cell : Cell Value}
    (generation : cell.generation = callers.cell.generation)
    (ran : ∀ number, cell.runs number = true → callers.cell.runs number = true)
    (tickets loads : Nat) : Led { callers with cell, tickets, loads } :=
  led.of_fewer generation (fun _ _ _ => id) fun number runs => ⟨ran number runs, fun _ _ => id⟩

theorem Led.set (led : callers.Led) {stage : Stage Value Failure}
    (idle : ∀ generation load, stage ≠ .leading generation load)
    (superseded : ∀ generation load, callers.stage? name = some (.leading generation load) →
      callers.cell.runs generation = false) : (callers.set name stage).Led := by
  refine led.of_fewer rfl ?_ ?_
  · exact fun _ number load leading => (stood_of_set leading (idle number load)).2
  · intro number runs
    refine ⟨runs, ?_⟩
    intro other load leading
    rw [stage?_set, if_neg]
    · exact leading
    · rintro rfl
      exact Bool.false_ne_true ((superseded number load leading).symm.trans runs)

theorem Led.forget (led : callers.Led)
    (superseded : ∀ generation load, callers.stage? name = some (.leading generation load) →
      callers.cell.runs generation = false) : (callers.forget name).Led := by
  refine led.of_fewer rfl ?_ ?_
  · exact fun _ _ _ leading => (stage?_of_forget leading).2
  · intro number runs
    refine ⟨runs, ?_⟩
    intro other load leading
    rw [stage?_forget, if_neg]
    · exact leading
    · rintro rfl
      exact Bool.false_ne_true ((superseded number load leading).symm.trans runs)

theorem Led.deliver (led : callers.Led) (called : List Ticket) (mail : Mail Value Failure) :
    (callers.deliver called mail).Led := by
  refine led.of_fewer rfl ?_ ?_
  · exact fun _ _ _ leading => stood_of_deliver leading nofun
  · intro number runs
    refine ⟨runs, ?_⟩
    intro other load leading
    rw [stage?_deliver, leading]
    rfl

theorem Led.called (led : callers.Led) {cell : Cell Value}
    (generation : cell.generation = callers.cell.generation)
    (stopped : ∀ number, cell.runs number = false) (called : List Ticket)
    (mail : Mail Value Failure) : ({ callers with cell }.deliver called mail).Led := by
  refine (led.of_cell generation ?_ _ _).deliver called mail
  intro number runs
  exact absurd ((stopped number).symm.trans runs) Bool.false_ne_true

theorem Led.leads (led : callers.Led) (name : Name) (loads : Nat) :
    Led ({ callers with cell := callers.cell.advance.2, loads }.set name
      (.leading (callers.cell.generation + 1) callers.loads)) where
  older := by
    intro other number load leading
    obtain ⟨_, same⟩ | ⟨_, leads⟩ := stage?_of_set leading
    · cases same
      exact Nat.le_refl _
    · exact Nat.le_succ_of_le (led.older other number load leads)
  single := by
    -- The new generation is newer than those of all other leaders.
    have newer : ∀ other load,
        callers.stage? other ≠ some (.leading (callers.cell.generation + 1) load) :=
      fun other load leading => Nat.not_succ_le_self _ (led.older other _ load leading)
    intro first second number load last leading leads
    obtain ⟨here, same⟩ | ⟨_, before⟩ := stage?_of_set leading <;>
      obtain ⟨there, equal⟩ | ⟨_, earlier⟩ := stage?_of_set leads
    · rw [here, there]
    · cases same
      exact absurd earlier (newer second last)
    · cases equal
      exact absurd before (newer first load)
    · exact led.single first second number load last before earlier
  running := by
    intro number waiters phase
    cases phase
    exact ⟨rfl, name, callers.loads, (stage?_set ..).trans (if_pos rfl)⟩

theorem Listed.of_fewer (listed : callers.Listed)
    (waiters : next.cell.phase.waiters = callers.cell.phase.waiters)
    (tickets : next.tickets = callers.tickets)
    (fewer : ∀ other ticket mail, next.stage? other = some (.waiting ticket mail) →
      callers.stage? other = some (.waiting ticket mail)) : next.Listed where
  issued := by
    intro other ticket mail waiting
    rw [tickets]
    exact listed.issued other ticket mail (fewer other ticket mail waiting)
  own := by
    intro first second ticket mail last waiting waits
    exact listed.own first second ticket mail last (fewer _ _ _ waiting) (fewer _ _ _ waits)
  valid := by
    rw [waiters, tickets]
    exact listed.valid
  once := by
    rw [waiters]
    exact listed.once
  listed := by
    intro other ticket mail waiting
    rw [waiters]
    exact listed.listed other ticket mail (fewer other ticket mail waiting)

theorem Listed.set (listed : callers.Listed) {stage : Stage Value Failure}
    (idle : ∀ ticket mail, stage ≠ .waiting ticket mail) (name : Name) :
    (callers.set name stage).Listed := by
  refine listed.of_fewer rfl rfl ?_
  intro other ticket mail waiting
  obtain ⟨_, same⟩ | ⟨_, waits⟩ := stage?_of_set waiting
  · exact absurd same (idle ticket mail)
  · exact waits

theorem Listed.forget (listed : callers.Listed) (name : Name) : (callers.forget name).Listed :=
  listed.of_fewer rfl rfl fun _ _ _ waiting => (stage?_of_forget waiting).2

theorem Listed.leads (listed : callers.Listed) (name : Name) (loads generation load : Nat) :
    Listed ({ callers with cell := callers.cell.advance.2, loads }.set name
      (.leading generation load)) := by
  -- The waiters of the running computation are adopted.
  have adopted : Listed { callers with cell := callers.cell.advance.2, loads } :=
    listed.of_fewer rfl rfl fun _ _ _ => id
  refine adopted.set ?_ name
  nofun

theorem Listed.queued (listed : callers.Listed) {generation : Nat} {waiters : List Ticket}
    (phase : callers.cell.phase = .running generation waiters) (name : Name) :
    Listed ({ callers with
      cell := { callers.cell with phase := .running generation (waiters ++ [callers.tickets]) }
      tickets := callers.tickets + 1 }.set name (.waiting callers.tickets .none)) := by
  obtain ⟨issued, own, valid, once, listed⟩ := listed
  rw [phase] at valid once listed
  have fresh : callers.tickets ∉ waiters := fun member => Nat.lt_irrefl _ (valid _ member)
  refine ⟨?_, ?_, ?_, ?_, ?_⟩
  · intro other ticket mail waiting
    obtain ⟨_, same⟩ | ⟨_, waits⟩ := stage?_of_set waiting
    · cases same
      exact Nat.lt_succ_self _
    · exact Nat.lt_succ_of_lt (issued other ticket mail waits)
  · -- The new ticket is larger than all that were issued.
    have newer : ∀ other mail, callers.stage? other ≠ some (.waiting callers.tickets mail) :=
      fun other mail waiting => Nat.lt_irrefl _ (issued other _ mail waiting)
    intro first second ticket mail last waiting waits
    obtain ⟨here, same⟩ | ⟨_, before⟩ := stage?_of_set waiting <;>
      obtain ⟨there, equal⟩ | ⟨_, earlier⟩ := stage?_of_set waits
    · rw [here, there]
    · cases same
      exact absurd earlier (newer second last)
    · cases equal
      exact absurd before (newer first mail)
    · exact own first second ticket mail last before earlier
  · intro ticket member
    rcases List.mem_append.mp member with earlier | last
    · exact Nat.lt_succ_of_lt (valid ticket earlier)
    · exact List.mem_singleton.mp last ▸ Nat.lt_succ_self _
  · refine List.nodup_append.mpr ⟨once, by simp, ?_⟩
    intro ticket member last same
    rw [List.mem_singleton] at same
    rintro rfl
    exact fresh (same ▸ member)
  · intro other ticket mail waiting
    change mail = .none ↔ ticket ∈ waiters ++ [callers.tickets]
    obtain ⟨_, same⟩ | ⟨_, waits⟩ := stage?_of_set waiting
    · cases same
      simp
    · have old : ticket ≠ callers.tickets := Nat.ne_of_lt (issued other ticket mail waits)
      rw [List.mem_append, List.mem_singleton, or_iff_left old]
      exact listed other ticket mail waits

theorem Listed.called (listed : callers.Listed) {cell : Cell Value} (vacant : cell.phase.waiters = [])
    {mail : Mail Value Failure} (sent : mail ≠ .none) :
    ({ callers with cell }.deliver callers.cell.phase.waiters mail).Listed where
  issued := by
    intro other ticket received waiting
    obtain ⟨before, found, waits⟩ := stage?_of_deliver waiting
    obtain ⟨rfl, _⟩ | ⟨rfl, _⟩ := Stage.eq_waiting_of_deliver waits
    · exact listed.issued other ticket _ found
    · exact listed.issued other ticket _ found
  own := by
    -- Calling changes what a ticket has received and not whose it is.
    have known : ∀ {other ticket received},
        ({ callers with cell }.deliver callers.cell.phase.waiters mail).stage? other =
          some (.waiting ticket received) →
        ∃ before, callers.stage? other = some (.waiting ticket before) := by
      intro other ticket received waiting
      obtain ⟨before, found, waits⟩ := stage?_of_deliver waiting
      obtain ⟨rfl, _⟩ | ⟨rfl, _⟩ := Stage.eq_waiting_of_deliver waits
      · exact ⟨_, found⟩
      · exact ⟨_, found⟩
    intro first second ticket received last waiting waits
    obtain ⟨one, was⟩ := known waiting
    obtain ⟨two, were⟩ := known waits
    exact listed.own first second ticket one two was were
  valid := by
    rw [cell_deliver]
    change ∀ ticket ∈ cell.phase.waiters, _
    rw [vacant]
    nofun
  once := by
    rw [cell_deliver]
    change cell.phase.waiters.Nodup
    rw [vacant]
    exact List.nodup_nil
  listed := by
    intro other ticket received waiting
    rw [cell_deliver]
    change received = .none ↔ ticket ∈ cell.phase.waiters
    rw [vacant]
    refine iff_of_false ?_ List.not_mem_nil
    rintro rfl
    obtain ⟨before, found, waits⟩ := stage?_of_deliver waiting
    obtain ⟨_, _, same⟩ | ⟨rfl, missing⟩ := Stage.eq_waiting_of_deliver waits
    · exact sent same.symm
    · -- Whoever had nothing was on the list.
      exact missing rfl ((listed.listed other ticket _ found).mp rfl)

theorem Led.enters (led : callers.Led) {force : Bool}
    (idle : ∀ generation load, callers.stage? name ≠ some (.leading generation load))
    (enters : Enters callers name force next) : next.Led := by
  have outside : ∀ generation load, callers.stage? name = some (.leading generation load) →
      callers.cell.runs generation = false := fun _ _ leading => absurd leading (idle _ _)
  cases enters with
  | served ready => exact led.set nofun outside
  | queued phase =>
    have joined := (Cell.Kept.joined callers.tickets phase).runs
    refine (led.of_cell ?_ ?_ _ _).set ?_ ?_
    · rfl
    · exact fun number runs => (joined number).symm.trans runs
    · nofun
    · exact fun number load leading => (joined number).trans (outside number load leading)
  | leads allowed => exact led.leads name _

theorem Listed.enters (listed : callers.Listed) {force : Bool}
    (enters : Enters callers name force next) : next.Listed := by
  cases enters with
  | served ready =>
    refine listed.set ?_ name
    nofun
  | queued phase => exact listed.queued phase name
  | leads allowed => exact listed.leads name _ _ _

def Named (callers : Callers Value Failure) (bound : Name) : Prop :=
  ∀ name stage, callers.stage? name = some stage → name < bound

theorem Named.set {bound : Name} (named : callers.Named bound) (below : name < bound)
    (stage : Stage Value Failure) : (callers.set name stage).Named bound := by
  intro other found stands
  obtain ⟨rfl, _⟩ | ⟨_, stood⟩ := stage?_of_set stands
  · exact below
  · exact named other found stood

theorem Named.forget {bound : Name} (named : callers.Named bound) (name : Name) :
    (callers.forget name).Named bound :=
  fun other found stands => named other found (stage?_of_forget stands).2

theorem Named.deliver {bound : Name} (named : callers.Named bound) (called : List Ticket)
    (mail : Mail Value Failure) : (callers.deliver called mail).Named bound := by
  intro other found stands
  obtain ⟨before, stood, _⟩ := stage?_of_deliver stands
  exact named other before stood

theorem Named.enters {bound : Name} (named : callers.Named bound) (below : name < bound)
    {force : Bool} (enters : Enters callers name force next) : next.Named bound := by
  cases enters with
  | served _ => exact named.set below _
  | queued _ => exact Named.set named below _
  | leads _ => exact Named.set named below _

end Callers

namespace Crowd

structure Attended (crowd : Crowd Value Failure) : Prop where
  led : crowd.callers.Led
  listed : crowd.callers.Listed
  named : crowd.callers.Named crowd.came

theorem attended_start : (start : Crowd Value Failure).Attended :=
  ⟨Callers.led_empty, Callers.listed_empty, nofun⟩

theorem Attended.turn {crowd : Crowd Value Failure} (attended : crowd.Attended)
    (event : Event Value Failure) : (crowd.turn event).Attended := by
  obtain ⟨led, listed, named⟩ := attended
  have turns := turns_turn crowd event
  generalize crowd.turn event = next at turns ⊢
  cases turns with
  | called force =>
    -- Callers are named in order, so nobody stands under the next name.
    have new : ∀ stage, crowd.callers.stage? crowd.came ≠ some stage :=
      fun stage found => Nat.lt_irrefl _ (named _ stage found)
    refine ⟨led.set ?_ ?_, listed.set ?_ _, Callers.Named.set ?_ (Nat.lt_succ_self _) _⟩
    · nofun
    · exact fun generation load leading => absurd leading (new _)
    · nofun
    · exact fun name stage found => Nat.lt_succ_of_lt (named name stage found)
  | @entered name _ stage _ _ found knocks enters =>
    -- Whoever knocks leads no load, so no load loses its leader.
    have idle : ∀ generation load,
        crowd.callers.stage? name ≠ some (.leading generation load) := by
      intro generation load leading
      rw [found, Option.some.injEq] at leading
      subst leading
      cases knocks
    exact ⟨led.enters idle enters, listed.enters enters, named.enters (named _ _ found) enters⟩
  | told found =>
    refine ⟨led.set ?_ ?_, listed.set ?_ _, named.set (named _ _ found) _⟩
    · nofun
    · intro generation load leading
      rw [found] at leading
      cases leading
    · nofun
  | @settled _ _ _ outcome leading runs =>
    have stopped := crowd.callers.cell.runs_settle outcome
    refine ⟨(led.called ?_ stopped _ _).set ?_ ?_, (listed.called ?_ ?_).set ?_ _,
      Callers.Named.set (Callers.Named.deliver named _ _) (named _ _ leading) _⟩
    · rfl
    · nofun
    · exact fun number _ _ => stopped number
    · exact crowd.callers.cell.waiters_settle outcome
    · nofun
    · nofun
  | @superseded name generation load _ leading stale =>
    refine ⟨led.set ?_ ?_, listed.set ?_ _, named.set (named _ _ leading) _⟩
    · nofun
    · intro number last leads
      rw [leading, Option.some.injEq, Stage.leading.injEq] at leads
      exact leads.1 ▸ stale
    · nofun
  | rested => exact ⟨led, listed, named⟩
  | abandoned leading runs =>
    refine ⟨(led.called ?_ ?_ _ _).forget ?_, (listed.called ?_ ?_).forget _,
      Callers.Named.forget (Callers.Named.deliver named _ _) _⟩
    · rfl
    · exact fun _ => rfl
    · exact fun _ _ _ => rfl
    · rfl
    · nofun
  | withdrawn leading stale =>
    refine ⟨led.forget ?_, listed.forget _, named.forget _⟩
    intro number last leads
    rw [leading, Option.some.injEq, Stage.leading.injEq] at leads
    exact leads.1 ▸ stale
  | left idle =>
    exact ⟨led.forget fun _ _ leading => absurd leading (idle _ _), listed.forget _, named.forget _⟩

theorem attended_run (events : List (Event Value Failure)) : (run events).Attended :=
  run_induction attended_start (fun _ event attended => attended.turn event) events

/-- Whatever comes in whatever order, nobody is stranded. A running computation is that of the newest
generation and has one leader, all other leaders being of older ones. A caller that waits is on the list
of the running computation exactly once, or has got an outcome, or has been told to look at the cell
again, as it then does. So nobody waits in vain: while there is one to whom nothing has come, there is a
leader whose outcome will settle the cell. -/
theorem no_caller_stranded (events : List (Event Value Failure)) :
    (∀ generation waiters, (run events).callers.cell.phase = .running generation waiters →
      generation = (run events).callers.cell.generation ∧
        ∃ leader load, (run events).callers.stage? leader = some (.leading generation load) ∧
          ∀ other number last, other ≠ leader →
            (run events).callers.stage? other = some (.leading number last) →
            number < generation) ∧
    (∀ name ticket mail, (run events).callers.stage? name = some (.waiting ticket mail) →
      (mail = .none ∧ (run events).callers.cell.phase.waiters.count ticket = 1 ∧
        ∀ other last, (run events).callers.stage? other = some (.waiting ticket last) →
          other = name) ∨
      ((∃ outcome, mail = .outcome outcome) ∧
        ticket ∉ (run events).callers.cell.phase.waiters) ∨
      (mail = .closed ∧ ticket ∉ (run events).callers.cell.phase.waiters ∧
        ∀ ending, ((run events).turn (.resume name ending)).callers =
          (run events).callers.enter name false)) ∧
    (∀ name ticket, (run events).callers.stage? name = some (.waiting ticket .none) →
      ∃ leader load, (run events).callers.stage? leader =
          some (.leading (run events).callers.cell.generation load) ∧
        (run events).callers.cell.runs (run events).callers.cell.generation = true) := by
  obtain ⟨led, listed, _⟩ := attended_run events
  generalize run events = crowd at led listed ⊢
  refine ⟨?_, ?_, ?_⟩
  · intro generation waiters phase
    obtain ⟨newest, leader, load, leading⟩ := led.running generation waiters phase
    refine ⟨newest, leader, load, leading, ?_⟩
    intro other number last apart leads
    have distinct : number ≠ generation := by
      rintro rfl
      exact apart (led.single other leader number last load leads leading)
    have older := led.older other number last leads
    omega
  · intro name ticket mail waiting
    have unheard_iff := listed.listed name ticket mail waiting
    cases mail with
    | none =>
      have member := unheard_iff.mp rfl
      refine .inl ⟨rfl, listed.once.count.trans (if_pos member), ?_⟩
      exact fun other last waits => listed.own other name ticket last _ waits waiting
    | outcome outcome =>
      refine .inr (.inl ⟨⟨outcome, rfl⟩, fun member => ?_⟩)
      cases unheard_iff.mpr member
    | closed =>
      have missing : ticket ∉ crowd.callers.cell.phase.waiters := by
        intro member
        cases unheard_iff.mpr member
      refine .inr (.inr ⟨rfl, missing, ?_⟩)
      intro ending
      simp [turn, Callers.step, waiting]
  · intro name ticket waiting
    have member := (listed.listed name ticket _ waiting).mp rfl
    obtain ⟨generation, waiters, phase⟩ := Phase.running_of_mem_waiters member
    obtain ⟨newest, leader, load, leading⟩ := led.running generation waiters phase
    subst newest
    exact ⟨leader, load, leading, Cell.runs_iff.mpr ⟨waiters, phase⟩⟩

end Crowd

end RulesAssist.SingleFlight
