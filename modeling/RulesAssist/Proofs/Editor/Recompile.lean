import RulesAssist.Proofs.Editor.Session

/-! The table that is in the cell after a recompilation.

A recompilation takes the lead at once and supersedes all other leaders. Until the next one is asked
for only its own outcome can settle the cell, and a table that is there stays there.
-/

set_option autoImplicit false

namespace RulesAssist.Editor

open SingleFlight

namespace Session

/-- The recompilation is under way and leads the running computation; all other leaders are
superseded. -/
structure Leading (session : Session) (name : SingleFlight.Name) : Prop where
  asked : session.pending? name = some .recompile
  unanswered : session.answer? name = none
  leads : ∃ generation load, session.stage? name = some (.leading generation load) ∧
    session.cell.runs generation = true
  superseded : ∀ other generation load, other ≠ name →
    session.stage? other = some (.leading generation load) → session.cell.runs generation = false

/-- The request has ended, and if it has brought a table the cell holds it. -/
structure Ended (session : Session) (name : SingleFlight.Name) : Prop where
  gone : session.pending? name = none
  ready : ∀ table, session.answer? name = some ⟨.recompile, some table⟩ →
    session.cell.phase = .ready table

theorem leading_recompile {session : Session} (ordered : session.Ordered) (source : Source) :
    (session.turn source (.ask .recompile)).Leading session.asked := by
  have missing : session.requests.memory.known? .recompile = none := rfl
  have stage : ((session.requests.enter session.asked .recompile).callers.stage? session.asked) =
      some (.leading (session.cell.generation + 1) session.requests.callers.loads) :=
    (Callers.stage?_set ..).trans (if_pos rfl)
  have unfinished : (session.requests.enter session.asked .recompile).conclude session.asked =
      session.requests.enter session.asked .recompile := by
    apply Requests.conclude_of_open
    intro outcome done
    rw [stage] at done
    cases done
  have turned : session.turn source (.ask .recompile) =
      ⟨session.requests.enter session.asked .recompile, session.asked + 1⟩ := by
    unfold turn
    dsimp only
    rw [Requests.ask_of_missing missing, unfinished]
  have runs : ∀ generation, (session.turn source (.ask .recompile)).cell.runs generation =
      (session.cell.generation + 1 == generation) := by
    intro generation
    rw [turned]
    rfl
  refine ⟨?_, ?_, ⟨session.cell.generation + 1, session.requests.callers.loads, ?_, ?_⟩, ?_⟩
  · rw [turned]
    exact Keyed.lookup_insert_self ..
  · rw [turned]
    exact (ordered.unused session.asked (Nat.le_refl _)).2
  · rw [turned]
    exact stage
  · rw [runs, beq_self_eq_true]
  · intro other generation load apart leading
    -- The new computation is the newest, so no other leader runs.
    have older := ordered.callers.older other generation load
    rw [turned] at leading
    have before : session.requests.callers.stage? other = some (.leading generation load) :=
      ((Callers.stage?_set ..).trans (if_neg apart)).symm.trans leading
    rw [runs, beq_eq_false_iff_ne]
    exact Nat.ne_of_gt (Nat.lt_succ_of_le (older before))

theorem ended_of_resume {session : Session} {name : SingleFlight.Name} (leading : session.Leading name)
    (source : Source) : (session.turn source (.resume name)).Ended name := by
  obtain ⟨generation, load, stage, runs⟩ := leading.leads
  -- It leads what runs, so its end settles the cell.
  have moved : (session.requests.move (endings source) name).callers =
      ({ session.requests.callers with
          cell := session.cell.settle (Desk.compile load (source load).outcome) }.deliver
        session.cell.phase.waiters (.outcome (Desk.compile load (source load).outcome))).set name
        (.done (Desk.compile load (source load).outcome)) := by
    unfold stage? at stage
    unfold cell at runs
    unfold Requests.move Callers.step
    simp only [stage, endings, Callers.finish, Cell.publish_of_runs runs]
    rfl
  have done : (session.requests.move (endings source) name).callers.stage? name =
      some (.done (Desk.compile load (source load).outcome)) := by
    rw [moved, Callers.stage?_set, if_pos rfl]
  have concluded := Requests.conclude_of_done done leading.asked
  have turned : session.turn source (.resume name) =
      ⟨(session.requests.move (endings source) name).conclude name, session.asked⟩ := rfl
  constructor
  · rw [turned, concluded]
    exact (Keyed.lookup_erase ..).trans (if_pos rfl)
  · intro table answered
    have given : (session.turn source (.resume name)).answer? name =
        some ⟨.recompile, (Desk.compile load (source load).outcome).toOption⟩ := by
      rw [turned, concluded]
      exact Keyed.lookup_insert_self ..
    have settled : (session.turn source (.resume name)).cell =
        session.cell.settle (Desk.compile load (source load).outcome) := by
      rw [turned, cell, Requests.cell_conclude, moved]
      rfl
    rw [given] at answered
    rw [settled]
    cases outcome : Desk.compile load (source load).outcome with
    | error error =>
      rw [outcome] at answered
      cases answered
    | ok compiled =>
      rw [outcome] at answered
      cases answered
      rfl

theorem leading_or_ended_turn {source : Source} {session : Session} (ordered : session.Ordered)
    {name : SingleFlight.Name} (named : name < session.asked) {event : Event}
    (plain : event ≠ .ask .recompile) (now : session.Leading name ∨ session.Ended name) :
    (session.turn source event).Leading name ∨ (session.turn source event).Ended name := by
  rcases now with leading | ended
  · -- While it leads, only an event about its own request can bring it to its end.
    by_cases apart : name = session.subject event
    · right
      cases event with
      | ask query => exact absurd named (apart ▸ Nat.lt_irrefl _)
      | resume other =>
        subst apart
        exact ended_of_resume leading source
      | drop other =>
        subst apart
        refine ⟨(Keyed.lookup_erase ..).trans (if_pos rfl), ?_⟩
        intro table answered
        exact absurd (leading.unanswered.symm.trans answered) nofun
    · left
      obtain ⟨generation, load, stage, runs⟩ := leading.leads
      have quiet : session.Quiet (session.subject event) (session.turn source event) :=
        quiet_turn ordered (Cell.occupied_of_runs runs) plain
          fun generation load => leading.superseded _ generation load (Ne.symm apart)
      obtain ⟨pending, answer⟩ := frame_turn source session event apart
      refine ⟨pending.trans leading.asked, answer.trans leading.unanswered,
        ⟨generation, load, (quiet.others name apart).trans stage,
          (quiet.cell.runs generation).trans runs⟩, ?_⟩
      intro other generation load distinct leads
      rw [quiet.cell.runs]
      apply leading.superseded other generation load distinct
      by_cases about : other = session.subject event
      · subst about
        exact quiet.leads generation load leads
      · exact (quiet.others other about).symm.trans leads
  · right
    have unasked : ∀ query, event = .ask query → name ≠ session.asked := fun _ _ => Nat.ne_of_lt named
    obtain ⟨gone, answer⟩ := answer?_turn source unasked ended.gone
    refine ⟨gone, ?_⟩
    intro table answered
    have ready := ended.ready table (answer.symm.trans answered)
    have occupied : session.cell.phase ≠ .idle := by
      rw [ready]
      nofun
    exact (quiet_turn ordered occupied plain fun _ _ _ => Cell.runs_of_ready ready _).cell.ready ready

/-- A recompilation that was asked for leads, or it has ended and its table stays. -/
structure Followed (session : Session) (name : SingleFlight.Name) : Prop where
  ordered : session.Ordered
  named : name < session.asked
  course : session.Leading name ∨ session.Ended name

theorem Followed.turn {session : Session} {name : SingleFlight.Name} (followed : session.Followed name)
    {source : Source} {event : Event} (plain : event ≠ .ask .recompile) :
    (session.turn source event).Followed name where
  ordered := followed.ordered.turn source event
  named := Nat.lt_of_lt_of_le followed.named (asked_le_turn source session event)
  course := leading_or_ended_turn followed.ordered followed.named plain followed.course

/-- The last recompilation has brought a table: the cell holds it. -/
theorem ready_of_recompile (source : Source) (before after : List Event) (table : Compiled)
    (last : ∀ event ∈ after, event ≠ .ask .recompile)
    (answered : (run source (before ++ .ask .recompile :: after)).answer? (run source before).asked =
      some ⟨.recompile, some table⟩) :
    (run source (before ++ .ask .recompile :: after)).cell.phase = .ready table := by
  have ordered := ordered_run source before
  have asked : ((run source before).turn source (.ask .recompile)).Followed (run source before).asked :=
    ⟨ordered.turn source _, Nat.lt_succ_self _, .inl (leading_recompile ordered source)⟩
  have followed := @foldl_keeps source (fun session => session.Followed (run source before).asked)
    (fun event => event ≠ .ask .recompile) (fun _ _ plain followed => followed.turn plain) after last _
    asked
  rw [run_append, List.foldl_cons] at answered ⊢
  rcases followed.course with leading | ended
  · exact absurd (leading.unanswered.symm.trans answered) nofun
  · exact ended.ready table answered

end Session

end RulesAssist.Editor
