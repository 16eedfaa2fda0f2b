import RulesAssist.Editor.Workspace
import RulesAssist.Proofs.Coverage.Undisturbed
import RulesAssist.Proofs.Editor.Forgetful

/-! Calls to a workspace, each of which ends before the next one begins.

Files, settings, what is kept of pages and whether they can be watched may change from call to call; the
grammar source stays the same.
Of the desk a call asks one question at most, so that the desk is always in agreement with one that
remembers nothing. Then all questions about symbols are answered from one table, whether the answer was
remembered or not.
-/

set_option autoImplicit false

namespace RulesAssist.Editor

open Coverage (Load)
open FilePath (Component)
open SingleFlight

inductive Call where
  | configure (settings : Settings)
  | openAt (root : String)
  | ask (query : Query)
  | completions (line : String)
  | symbolBefore (line : String)
  | membersOf (name : String)
  | coverageAt (file : String) (position : Position) (cancelled : Bool)
  | talliesAt (file : String) (position : Position) (cancelled : Bool)
  | hover (file line : String) (position : Position) (cancelled : Bool)
  | load (file path : String) (cancelled : Bool)
  | notify (path : List Component)
  | discard (path : String)
  | shutdown

namespace Workspace

def perform (workspace : Workspace) (world : World) : Call → Workspace
  | .configure settings => workspace.configure settings
  | .openAt root => workspace.openAt root
  | .ask query => (workspace.ask world query).2.2
  | .completions line => (workspace.completions world line).2
  | .symbolBefore line => (workspace.symbolBefore world line).2
  | .membersOf name => (workspace.membersOf world name).2
  | .coverageAt file position cancelled => (workspace.coverageAt world file position cancelled).2
  | .talliesAt file position cancelled => (workspace.talliesAt world file position cancelled).2
  | .hover file line position cancelled => (workspace.hover world file line position cancelled).2
  | .load file path cancelled =>
    let load := Load.start file (FilePath.resolve world.directory path) cancelled
    { workspace with
      store := (load.run { refuses := world.refuses, content := world.read path } workspace.store).2 }
  | .notify path => { workspace with store := (workspace.store.notify path).2 }
  | .discard path =>
    { workspace with store := workspace.store.discard (FilePath.resolve world.directory path) }
  | .shutdown => workspace.shutdown

/-- The workspaces that calls lead to. Everything but the grammar source may change between two calls. -/
inductive Reached (source : Source) : Workspace → Prop where
  | empty : Reached source .empty
  | call {workspace : Workspace} (world : World) (call : Call) :
      Reached source workspace → Reached source (workspace.perform { world with source } call)

theorem desk_coverageAt (workspace : Workspace) (world : World) (file : String) (position : Position)
    (cancelled : Bool) :
    (workspace.coverageAt world file position cancelled).2.desk = workspace.desk := by
  unfold coverageAt
  split <;> rfl

theorem wordHover_cases (workspace : Workspace) (world : World) (line : String)
    (position : Position) :
    workspace.wordHover world line position = (none, workspace) ∨
    ∃ columns word, Text.touching world.isWord line position.column = some columns ∧
      Text.wordIn line columns = some word ∧
      (workspace.wordHover world line position).2 =
        (workspace.ask world (.documentation word)).2.2 ∧
      ∀ hover, (workspace.wordHover world line position).1 = some hover →
        (workspace.ask world (.documentation word)).1 = some hover.contents ∧
        hover.range = ⟨⟨position.line, columns.start⟩, ⟨position.line, columns.stop⟩⟩ := by
  unfold wordHover
  cases around : Text.touching world.isWord line position.column with
  | none => exact .inl rfl
  | some columns =>
    simp only
    cases found : Text.wordIn line columns with
    | none => exact .inl rfl
    | some word =>
      simp only
      refine .inr ⟨columns, word, rfl, found, ?_⟩
      generalize workspace.ask world (.documentation word) = asked
      obtain ⟨answer, withdrawn, after⟩ := asked
      cases answer with
      | none => exact ⟨rfl, nofun⟩
      | some text =>
        refine ⟨rfl, ?_⟩
        intro hover shown
        cases withdrawn with
        | true => cases shown
        | false =>
          cases shown
          exact ⟨rfl, rfl⟩

theorem hover_cases (workspace : Workspace) (world : World) (file line : String)
    (position : Position) (cancelled : Bool) :
    (∃ entry, (workspace.coverageAt world file position cancelled).1 = some entry ∧
      workspace.hover world file line position cancelled =
        (some (Hover.ofEntry entry), (workspace.coverageAt world file position cancelled).2)) ∨
    (workspace.coverageAt world file position cancelled).1 = none ∧
      (workspace.hover world file line position cancelled =
          (none, (workspace.coverageAt world file position cancelled).2) ∨
        workspace.hover world file line position cancelled =
          (workspace.coverageAt world file position cancelled).2.wordHover world line position) := by
  unfold hover
  generalize workspace.coverageAt world file position cancelled = covered
  obtain ⟨found, after⟩ := covered
  cases found with
  | some entry => exact .inl ⟨entry, rfl, rfl⟩
  | none =>
    cases cancelled with
    | true => exact .inr ⟨rfl, .inl rfl⟩
    | false => exact .inr ⟨rfl, .inr rfl⟩

theorem desk_perform (workspace : Workspace) (world : World) (call : Call) :
    (workspace.perform world call).desk = workspace.desk ∨
      ∃ query, (workspace.perform world call).desk =
        (workspace.desk.ask world.source query).2.2 := by
  cases call with
  | ask query => exact .inr ⟨query, rfl⟩
  | completions line =>
    simp only [perform, completions]
    split
    · exact .inl rfl
    · split
      · exact .inr ⟨_, rfl⟩
      · exact .inr ⟨_, rfl⟩
  | symbolBefore line =>
    simp only [perform, symbolBefore]
    split
    · exact .inl rfl
    · exact .inr ⟨_, rfl⟩
  | membersOf name => exact .inr ⟨.members name, rfl⟩
  | coverageAt file position cancelled =>
    exact .inl (desk_coverageAt workspace world file position cancelled)
  | talliesAt file position cancelled =>
    exact .inl (desk_coverageAt workspace world file position cancelled)
  | hover file line position cancelled =>
    -- Only a word that no coverage hides asks the desk.
    have same := desk_coverageAt workspace world file position cancelled
    simp only [perform]
    rcases hover_cases workspace world file line position cancelled with
      ⟨entry, _, covered⟩ | ⟨_, stopped | worded⟩
    · rw [covered]
      exact .inl same
    · rw [stopped]
      exact .inl same
    · rw [worded, ← same]
      rcases wordHover_cases (workspace.coverageAt world file position cancelled).2 world line
        position with missing | ⟨_, word, _, _, asked, _⟩
      · rw [missing]
        exact .inl rfl
      · rw [asked]
        exact .inr ⟨.documentation word, rfl⟩
  | _ => exact .inl rfl

/-- Beside the desk of a workspace there may always stand one that remembers nothing. -/
theorem Reached.agrees {source : Source} {workspace : Workspace}
    (reached : Reached source workspace) :
    ∃ callers, Forgetful.Agrees callers workspace.desk := by
  induction reached with
  | empty => exact ⟨.empty, Forgetful.agrees_empty⟩
  | @call workspace world call reached ih =>
    obtain ⟨callers, agrees⟩ := ih
    rcases desk_perform workspace { world with source } call with same | ⟨query, asked⟩
    · rw [same]
      exact ⟨callers, agrees⟩
    · rw [asked]
      obtain ⟨later, _, agrees⟩ := agrees.ask source query
      exact ⟨later, agrees⟩

end Workspace

namespace Forgetful.Agrees

variable {callers : Callers Compiled GrammarError} {desk : Desk}

theorem content_ask (agrees : Agrees callers desk) (source : Source) (query : Query)
    (needed : query.needsTable = true) (plain : query.force = false) :
    query.content (desk.ask source query).1 = query.lookUp (desk.obtain source false).1 := by
  cases recalled : desk.memory.known? query with
  | none =>
    rw [Desk.ask_of_missing recalled, Memory.content_conclude_lookUp recalled, plain]
  | some answer =>
    obtain ⟨table, held, content⟩ := agrees.backed query answer needed recalled
    rw [Desk.obtain_of_ready (Phase.ready_of_value? held), ← content]
    simp [Desk.ask, recalled]

theorem obtain_ask (agrees : Agrees callers desk) {source : Source} {query : Query}
    (plain : query.force = false) {table : Compiled} (got : (desk.obtain source false).1 = some table) :
    ((desk.ask source query).2.2.obtain source false).1 = some table := by
  cases recalled : desk.memory.known? query with
  | none =>
    have held := (Desk.obtains_obtain agrees.resting source false).value?
    rw [got] at held
    have ready : (desk.ask source query).2.2.cell.phase = .ready table := by
      rw [Desk.ask_of_missing recalled, plain]
      exact Phase.ready_of_value? held
    rw [Desk.obtain_of_ready ready]
  | some answer =>
    have same : (desk.ask source query).2.2 = desk := by simp [Desk.ask, recalled]
    rw [same, got]

/-- What is said about a word is what the symbol of that name is about in the table, whether table and symbol
are asked for before or afterwards. -/
theorem symbol_of_documentation (agrees : Agrees callers desk) {source : Source} {word text : String}
    (answered : (desk.ask source (.documentation word)).1 = some text) :
    ∃ (table : Compiled) (symbol : Symbol),
      table.content.find? word = some symbol ∧ symbol.about = text ∧
      ∀ now, now = desk ∨ now = (desk.ask source (.documentation word)).2.2 →
        (now.ask source .table).1 = some table ∧ (now.ask source (.symbol word)).1 = some symbol := by
  have needed : (Query.documentation word).needsTable = true := by
    cases needed : (Query.documentation word).needsTable with
    | true => rfl
    | false =>
      obtain ⟨answer, known, content⟩ := Memory.known?_of_unneeded desk.memory needed
      simp only [Desk.ask, known] at answered
      subst answered
      cases content
  have told := agrees.content_ask source (.documentation word) needed rfl
  rw [answered] at told
  cases got : (desk.obtain source false).1 with
  | none =>
    rw [got] at told
    cases told
  | some table =>
    rw [got] at told
    have found : some text = (table.content.find? word).map Symbol.about := Content.text.inj told
    obtain ⟨symbol, named, about⟩ := Option.map_eq_some_iff.mp found.symm
    have asked {desk : Desk} {callers : Callers Compiled GrammarError}
        (agrees : Agrees callers desk) (got : (desk.obtain source false).1 = some table) :
        (desk.ask source .table).1 = some table ∧ (desk.ask source (.symbol word)).1 = some symbol := by
      have told := agrees.content_ask source (.symbol word) needed rfl
      rw [got] at told
      exact ⟨got, (Content.symbol.inj told).trans named⟩
    refine ⟨table, symbol, named, about, ?_⟩
    rintro now (rfl | rfl)
    · exact asked agrees got
    · obtain ⟨later, _, onward⟩ := agrees.ask source (.documentation word)
      exact asked onward (agrees.obtain_ask rfl got)

end Forgetful.Agrees

end RulesAssist.Editor
