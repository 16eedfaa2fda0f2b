import RulesAssist.Proofs.Editor.Memory
import RulesAssist.Proofs.Editor.Recompile

/-! What questions are answered after the table was compiled anew.

Once the last recompilation has ended well, whoever looks at the cell gets its table. Requests that
hold the outcome of an older load still remember what they answer from it, so later questions are
answered from the new table exactly if no such answer differs.
-/

set_option autoImplicit false

namespace RulesAssist.Editor

open SingleFlight

namespace Session

/-- The cell holds the table, and no recompilation is under way. -/
structure Ready (table : Compiled) (session : Session) : Prop where
  ordered : session.Ordered
  ready : session.cell.phase = .ready table
  idle : ∀ name, session.pending? name ≠ some .recompile

/-- What is remembered is answered from the table, and so is what will be remembered by requests that
hold the outcome of another load. -/
structure Purged (source : Source) (table : Compiled) (session : Session) : Prop where
  remembered : ∀ (query : Query) (answer : query.Answer), query.isRemembered = true →
    session.requests.memory.known? query = some answer →
    query.content answer = query.contentFrom table
  prospects : ∀ (name : SingleFlight.Name) (query : Query) (stage : Stage Compiled GrammarError)
    (older : Compiled), query.isRemembered = true → session.requests.memory.known? query = none →
    session.pending? name = some query → session.stage? name = some stage →
    Callers.prospect? (endings source) stage = some (.ok older) →
    query.contentFrom older = query.contentFrom table

/-- Every question whose answers are remembered is answered from the table at once, whenever it is
asked before the next recompilation. -/
def AnswersFrom (source : Source) (table : Compiled) (session : Session) : Prop :=
  ∀ (rest : List Event) (query : Query), (∀ event ∈ rest, event ≠ .ask .recompile) →
    query.isRemembered = true →
    ∃ answer, ((rest.foldl (turn source) session).turn source (.ask query)).answer?
        (rest.foldl (turn source) session).asked = some ⟨query, answer⟩ ∧
      query.content answer = query.contentFrom table

theorem pending?_turn {source : Source} {session : Session} {event : Event}
    {name : SingleFlight.Name} {query : Query}
    (under : (session.turn source event).pending? name = some query) :
    session.pending? name = some query ∨ event = .ask query := by
  -- Only the request that the event is about can come to be under way, or cease to be.
  by_cases apart : name = session.subject event
  · subst apart
    cases event with
    | ask asked =>
      unfold turn pending? at under
      dsimp only at under
      cases recalled : session.requests.memory.known? asked with
      | some answer =>
        rw [Requests.ask_of_recalled recalled] at under
        exact .inl under
      | none =>
        rw [Requests.ask_of_missing recalled] at under
        rcases Requests.pending_conclude (session.requests.enter session.asked asked) session.asked
          session.asked with same | ⟨_, gone⟩
        · have entered := same.symm.trans under
          rw [Requests.enter, Keyed.lookup_insert, if_pos rfl, Option.some.injEq] at entered
          exact .inr (congrArg Event.ask entered)
        · cases gone.symm.trans under
    | resume other =>
      rcases Requests.pending_conclude (session.requests.move (endings source) other) other other with
        same | ⟨_, gone⟩
      · exact .inl (same.symm.trans under)
      · cases gone.symm.trans under
    | drop other =>
      have missing : (session.requests.drop other).pending.lookup other = none :=
        (Keyed.lookup_erase ..).trans (if_pos rfl)
      cases missing.symm.trans under
  · exact .inl ((frame_turn source session event apart).1.symm.trans under)

theorem Ready.quiet {table : Compiled} {session : Session} (ready : Ready table session)
    {source : Source} {event : Event} (plain : event ≠ .ask .recompile) :
    session.Quiet (session.subject event) (session.turn source event) := by
  refine quiet_turn ready.ordered ?_ plain fun _ _ _ => Cell.runs_of_ready ready.ready _
  rw [ready.ready]
  nofun

theorem Ready.turn {table : Compiled} {session : Session} (ready : Ready table session)
    {source : Source} {event : Event} (plain : event ≠ .ask .recompile) :
    Ready table (session.turn source event) where
  ordered := ready.ordered.turn source event
  ready := (ready.quiet plain).cell.ready ready.ready
  idle := by
    intro name under
    rcases pending?_turn under with before | asked
    · exact ready.idle name before
    · exact plain asked

theorem Purged.conclude {source : Source} {table : Compiled} {session next : Session}
    (purged : Purged source table session) {query : Query} (keeps : query ≠ .recompile)
    (compiled : Option Compiled)
    (right : ∀ older, compiled = some older → query.isRemembered = true →
      session.requests.memory.known? query = none → query.contentFrom older = query.contentFrom table)
    (memory : next.requests.memory = (session.requests.memory.conclude compiled query).2)
    (others : ∀ name wanted, next.pending? name = some wanted →
      session.pending? name = some wanted ∧ next.stage? name = session.stage? name) :
    Purged source table next where
  remembered := by
    intro wanted answer remembered recalled
    rw [memory] at recalled
    -- Whatever was remembered stays as it is, and only this question may have been added.
    by_cases apart : wanted = query
    · subst apart
      cases before : session.requests.memory.known? wanted with
      | some kept =>
        rw [Memory.known?_conclude_of_some compiled keeps before, Option.some.injEq] at recalled
        subst recalled
        exact purged.remembered wanted kept remembered before
      | none =>
        cases compiled with
        | none =>
          rw [Memory.conclude_none _ keeps, before] at recalled
          cases recalled
        | some older =>
          rw [Memory.known?_conclude_of_none remembered before, Option.some.injEq] at recalled
          subst recalled
          exact (Memory.content_conclude before older).trans (right older rfl remembered before)
    · rw [Memory.known?_conclude_of_ne _ compiled keeps apart] at recalled
      exact purged.remembered wanted answer remembered recalled
  prospects := by
    intro name wanted stage older remembered missing under found prospect
    obtain ⟨before, same⟩ := others name wanted under
    refine purged.prospects name wanted stage older remembered ?_ before (same.symm.trans found) prospect
    rw [memory] at missing
    by_cases apart : wanted = query
    · subst apart
      cases recalled : session.requests.memory.known? wanted with
      | none => rfl
      | some kept =>
        rw [Memory.known?_conclude_of_some compiled keeps recalled] at missing
        cases missing
    · rw [Memory.known?_conclude_of_ne _ compiled keeps apart] at missing
      exact missing

theorem Purged.of_same {source : Source} {table : Compiled} {session next : Session}
    (purged : Purged source table session)
    (memory : next.requests.memory = session.requests.memory)
    (others : ∀ name wanted, next.pending? name = some wanted →
      session.pending? name = some wanted ∧ next.stage? name = session.stage? name) :
    Purged source table next :=
  purged.conclude (show Query.table ≠ .recompile from nofun) none nofun memory others

theorem Ready.ask_of_missing {table : Compiled} {session : Session} (ready : Ready table session)
    {query : Query} (plain : query ≠ .recompile)
    (missing : session.requests.memory.known? query = none) (source : Source) :
    session.turn source (.ask query) =
      { requests :=
          { callers := (session.requests.callers.set session.asked (.done (.ok table))).forget
              session.asked
            memory := (session.requests.memory.conclude (some table) query).2
            pending := Keyed.erase session.asked
              (Keyed.insert session.asked query session.requests.pending)
            answers := Keyed.insert session.asked
              ⟨query, (session.requests.memory.conclude (some table) query).1⟩
              session.requests.answers }
        asked := session.asked + 1 } := by
  have served : session.requests.callers.enter session.asked query.force =
      session.requests.callers.set session.asked (.done (.ok table)) := by
    have phase : session.requests.callers.cell.phase = .ready table := ready.ready
    unfold Callers.enter Cell.enter
    rw [force_of_ne plain, phase]
  have done : (session.requests.enter session.asked query).callers.stage? session.asked =
      some (.done (.ok table)) := by
    rw [Requests.enter, served, Callers.stage?_set, if_pos rfl]
  have under : (session.requests.enter session.asked query).pending.lookup session.asked =
      some query := Keyed.lookup_insert_self ..
  unfold Session.turn
  dsimp only
  rw [Requests.ask_of_missing missing, Requests.conclude_of_done done under, Requests.enter, served]
  rfl

theorem Purged.of_done {source : Source} {table : Compiled} {session : Session}
    (ready : Ready table session) (purged : Purged source table session)
    {name : SingleFlight.Name} {query : Query} {stage : Stage Compiled GrammarError}
    {outcome : Except GrammarError Compiled} (under : session.pending? name = some query)
    (found : session.stage? name = some stage)
    (holds : outcome = .ok table ∨ Callers.prospect? (endings source) stage = some outcome)
    {requests : Requests}
    (memory : requests.memory = (session.requests.memory.conclude outcome.toOption query).2)
    (pending : requests.pending = Keyed.erase name session.requests.pending)
    (others : ∀ other, other ≠ name →
      requests.callers.stage? other = session.requests.callers.stage? other) :
    Purged source table ⟨requests, session.asked⟩ := by
  have keeps : query ≠ .recompile := by
    rintro rfl
    exact ready.idle name under
  refine purged.conclude keeps outcome.toOption ?_ memory ?_
  · intro older brought remembered missing
    cases outcome with
    | error error => cases brought
    | ok compiled =>
      cases brought
      rcases holds with same | prospect
      · rw [Except.ok.inj same]
      · exact purged.prospects name query stage older remembered missing under found prospect
  · intro other wanted later
    change requests.pending.lookup other = some wanted at later
    rw [pending] at later
    obtain ⟨apart, before⟩ := Keyed.lookup_of_erase later
    exact ⟨before, others other apart⟩

theorem Ready.move {table : Compiled} {session : Session} (ready : Ready table session)
    (source : Source) (name : SingleFlight.Name) :
    (session.requests.move (endings source) name).conclude name = session.requests ∨
      ∃ stage outcome, session.stage? name = some stage ∧
        (session.requests.move (endings source) name).callers.stage? name = some (.done outcome) ∧
        (outcome = .ok table ∨ Callers.prospect? (endings source) stage = some outcome) := by
  cases found : session.stage? name with
  | none =>
    have still : session.requests.callers.step (endings source) name = session.requests.callers := by
      unfold stage? at found
      simp only [Callers.step, found]
    left
    unfold Requests.move
    rw [still]
    apply Requests.conclude_of_open
    intro outcome done
    cases found.symm.trans done
  | some stage =>
    have entered : ∀ force, stage ≠ .created force := by
      rintro force rfl
      exact ready.ordered.callers.entered name force found
    rcases Callers.step_of_ready ready.ready found entered with still | ⟨outcome, moved, holds⟩
    · unfold Requests.move
      rw [still]
      -- A caller that stands still is done already, or its request goes on.
      by_cases done : ∃ outcome, stage = .done outcome
      · obtain ⟨outcome, rfl⟩ := done
        exact .inr ⟨_, outcome, rfl, found, .inr rfl⟩
      · left
        apply Requests.conclude_of_open
        intro outcome same
        exact done ⟨outcome, Option.some.inj (found.symm.trans same)⟩
    · right
      refine ⟨stage, outcome, rfl, ?_, holds⟩
      rw [Requests.move, moved, Callers.stage?_set, if_pos rfl]

theorem Purged.turn {source : Source} {table : Compiled} {session : Session}
    (purged : Purged source table session) (ready : Ready table session) {event : Event}
    (plain : event ≠ .ask .recompile) : Purged source table (session.turn source event) := by
  cases event with
  | ask query =>
    have keeps : query ≠ .recompile := fun same => plain (same ▸ rfl)
    cases recalled : session.requests.memory.known? query with
    | some answer =>
      unfold Session.turn
      dsimp only
      rw [Requests.ask_of_recalled recalled]
      exact purged.of_same rfl fun _ _ under => ⟨under, rfl⟩
    | none =>
      rw [ready.ask_of_missing keeps recalled]
      -- The table is there, so the request is done at once.
      have right : ∀ older, some table = some older → query.isRemembered = true →
          session.requests.memory.known? query = none →
          query.contentFrom older = query.contentFrom table := by
        rintro older ⟨⟩ _ _
        rfl
      apply purged.conclude keeps (some table) right rfl
      intro name wanted under
      change (Keyed.erase _ (Keyed.insert ..)).lookup name = some wanted at under
      obtain ⟨apart, before⟩ := Keyed.lookup_of_erase under
      rw [Keyed.lookup_insert_of_ne apart] at before
      refine ⟨before, ?_⟩
      refine (Callers.stage?_forget ..).trans ((if_neg apart).trans ?_)
      exact (Callers.stage?_set ..).trans (if_neg apart)
  | resume name =>
    have quiet : session.Quiet name (session.turn source (.resume name)) := ready.quiet plain
    have others := quiet.others
    unfold Session.turn at others ⊢
    dsimp only at others ⊢
    rw [Requests.step_eq] at others ⊢
    -- Either nothing has moved, or the caller is done with the table or with what it was bound for.
    rcases ready.move source name with same | ⟨stage, outcome, found, done, holds⟩
    · rw [same]
      exact purged.of_same rfl fun _ _ under => ⟨under, rfl⟩
    · cases under : session.requests.pending.lookup name with
      | none =>
        have open_ : (session.requests.move (endings source) name).conclude name =
            session.requests.move (endings source) name := Requests.conclude_of_unasked under
        rw [open_] at others ⊢
        refine purged.of_same rfl ?_
        intro other wanted later
        refine ⟨later, others other ?_⟩
        rintro rfl
        exact absurd (under.symm.trans later) nofun
      | some query =>
        have concluded := Requests.conclude_of_done done under
        refine purged.of_done ready under found holds ?_ ?_ others
        · rw [concluded]
          rfl
        · rw [concluded]
          rfl
  | drop name =>
    refine purged.of_same rfl ?_
    intro other wanted later
    change (Keyed.erase name _).lookup other = some wanted at later
    obtain ⟨apart, before⟩ := Keyed.lookup_of_erase later
    exact ⟨before, (ready.quiet plain).others other apart⟩

theorem Ready.answer {table : Compiled} {session : Session} (ready : Ready table session)
    {query : Query} (plain : query ≠ .recompile) (source : Source) :
    ∃ answer, (session.turn source (.ask query)).answer? session.asked = some ⟨query, answer⟩ ∧
      (session.requests.memory.known? query = some answer ∨
        session.requests.memory.known? query = none ∧
          query.content answer = query.contentFrom table) := by
  cases recalled : session.requests.memory.known? query with
  | some answer =>
    refine ⟨answer, ?_, .inl rfl⟩
    unfold Session.turn answer?
    dsimp only
    rw [Requests.ask_of_recalled recalled]
    exact Keyed.lookup_insert_self ..
  | none =>
    refine ⟨_, ?_, .inr ⟨rfl, Memory.content_conclude recalled table⟩⟩
    rw [ready.ask_of_missing plain recalled]
    exact Keyed.lookup_insert_self ..

theorem plain_of_remembered {query : Query} (remembered : query.isRemembered = true) :
    query ≠ .recompile := by
  rintro rfl
  cases remembered

theorem Purged.answersFrom {source : Source} {table : Compiled} {session : Session}
    (purged : Purged source table session) (ready : Ready table session) :
    AnswersFrom source table session := by
  intro rest query plain remembered
  have kept : Ready table (rest.foldl (Session.turn source) session) ∧
      Purged source table (rest.foldl (Session.turn source) session) := by
    refine @foldl_keeps source (fun session => Ready table session ∧ Purged source table session)
      (fun event => event ≠ .ask .recompile) ?_ rest plain session ⟨ready, purged⟩
    rintro session event other ⟨ready, purged⟩
    exact ⟨ready.turn other, purged.turn ready other⟩
  obtain ⟨answer, given, recalled | ⟨_, right⟩⟩ :=
    kept.1.answer (plain_of_remembered remembered) source
  · exact ⟨answer, given, kept.2.remembered query answer remembered recalled⟩
  · exact ⟨answer, given, right⟩

theorem purged_of_answersFrom {source : Source} {table : Compiled} {session : Session}
    (ready : Ready table session) (answers : AnswersFrom source table session) :
    Purged source table session where
  remembered := by
    intro query answer remembered recalled
    obtain ⟨shown, given, right⟩ := answers [] query nofun remembered
    obtain ⟨found, same, again | ⟨missing, _⟩⟩ :=
      ready.answer (plain_of_remembered remembered) source
    · rw [recalled, Option.some.injEq] at again
      subst again
      cases same.symm.trans given
      exact right
    · rw [recalled] at missing
      cases missing
  prospects := by
    intro name query stage older remembered missing under found prospect
    -- The request is resumed, and then its question is asked again.
    have plain : Event.resume name ≠ .ask .recompile := nofun
    have done : (session.requests.move (endings source) name).callers.stage? name =
        some (.done (.ok older)) := Callers.step_of_prospect found prospect
    have memory : (session.turn source (.resume name)).requests.memory =
        (session.requests.memory.conclude (some older) query).2 := by
      unfold turn
      dsimp only
      rw [Requests.step_eq, Requests.conclude_of_done done under]
      rfl
    have recalled := Memory.known?_conclude_of_none remembered missing older
    rw [← memory] at recalled
    obtain ⟨shown, given, right⟩ := answers [.resume name] query
      (fun event member => List.mem_singleton.mp member ▸ plain) remembered
    obtain ⟨found, same, again | ⟨missing, _⟩⟩ :=
      (ready.turn plain).answer (plain_of_remembered remembered) source
    · rw [recalled, Option.some.injEq] at again
      subst again
      cases same.symm.trans given
      exact (Memory.content_conclude missing older).symm.trans right
    · rw [recalled] at missing
      cases missing

/-- After the last recompilation has brought a table and all others have ended, questions are answered
from that table exactly if neither what is remembered nor what is still to be remembered from the
outcome of another load differs from it. -/
theorem answersFrom_recompile_iff (source : Source) (before after : List Event) (table : Compiled)
    (last : ∀ event ∈ after, event ≠ .ask .recompile)
    (answered : (run source (before ++ .ask .recompile :: after)).answer? (run source before).asked =
      some ⟨.recompile, some table⟩)
    (idle : ∀ name, (run source (before ++ .ask .recompile :: after)).pending? name ≠
      some .recompile) :
    AnswersFrom source table (run source (before ++ .ask .recompile :: after)) ↔
      Purged source table (run source (before ++ .ask .recompile :: after)) := by
  have ready : Ready table (run source (before ++ .ask .recompile :: after)) :=
    ⟨ordered_run source _, ready_of_recompile source before after table last answered, idle⟩
  exact ⟨purged_of_answersFrom ready, fun purged => purged.answersFrom ready⟩

/-- A source whose first load brings the modifier `get`, and whose later loads bring nothing. -/
def forgetful : Source := fun load =>
  { outcome := .ok
      { accessModifiers := if load = 0 then [⟨"get", "", none⟩] else [], basicTypes := [], types := [] }
    withdraws := false }

def tableOf (load : Nat) : Compiled :=
  ⟨load, SymbolTable.compile
    { accessModifiers := if load = 0 then [⟨"get", "", none⟩] else [], basicTypes := [], types := [] }⟩

def waitedFor : Session :=
  run forgetful ([] ++ .ask .recompile :: [.ask (.keywords "allow"), .resume 0])

/-- The question that waited is no harm: it holds the very table. -/
theorem answersFrom_recompile_iff_waitedFor :
    waitedFor.answer? 0 = some ⟨.recompile, some (tableOf 0)⟩ ∧
      AnswersFrom forgetful (tableOf 0) waitedFor := by
  have answered : waitedFor.answer? 0 = some ⟨.recompile, some (tableOf 0)⟩ := rfl
  have memory : waitedFor.requests.memory = .empty := rfl
  have pending : waitedFor.requests.pending = [(1, .keywords "allow")] := rfl
  have stages : waitedFor.requests.callers.stages =
      [(1, .waiting 0 (.outcome (.ok (tableOf 0))))] := rfl
  have idle : ∀ name, waitedFor.pending? name ≠ some .recompile := by
    intro name under
    rw [pending?, pending, List.lookup_cons] at under
    split at under <;> cases under
  refine ⟨answered, (answersFrom_recompile_iff forgetful [] [.ask (.keywords "allow"), .resume 0]
    (tableOf 0) (by decide) answered idle).mpr ⟨?_, ?_⟩⟩
  · intro query answer _ recalled
    change waitedFor.requests.memory.known? query = some answer at recalled
    rw [memory] at recalled
    unfold Query.contentFrom Query.answerFrom
    rw [recalled]
    rfl
  · intro name query stage older _ _ _ found prospect
    change waitedFor.requests.callers.stages.lookup name = some stage at found
    rw [stages, List.lookup_cons] at found
    split at found
    · cases found
      cases prospect
      rfl
    · cases found

/-- A question is overtaken by a recompilation, and then its own, older load ends. -/
def overtaken : Session :=
  run forgetful ([.ask (.keywords "allow")] ++ .ask .recompile :: [.resume 1, .resume 0])

/-- What it answers from the older load is remembered, and the next question is answered by it. -/
theorem answers_of_overtaken_load :
    overtaken.answer? 1 = some ⟨.recompile, some (tableOf 1)⟩ ∧
      (∀ name, overtaken.pending? name ≠ some .recompile) ∧
      ¬ AnswersFrom forgetful (tableOf 1) overtaken := by
  refine ⟨rfl, ?_, ?_⟩
  · intro name under
    have pending : overtaken.requests.pending = [] := rfl
    rw [pending?, pending] at under
    cases under
  · intro answers
    obtain ⟨answer, given, content⟩ := answers [] (.keywords "allow") nofun rfl
    have remembered : (overtaken.turn forgetful (.ask (.keywords "allow"))).answer? 2 =
        some ⟨.keywords "allow", some ⟨0, [Suggestion.ofModifier ⟨0, "get", "", none, none⟩]⟩⟩ := rfl
    have nothing : (Query.keywords "allow").contentFrom (tableOf 1) = .list none := rfl
    cases remembered.symm.trans given
    rw [nothing] at content
    cases content

end Session

end RulesAssist.Editor
