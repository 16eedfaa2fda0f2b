import RulesAssist.Coverage.Innermost
import RulesAssist.Coverage.Load
import RulesAssist.Coverage.Phrase
import RulesAssist.Editor.Desk
import RulesAssist.FileTree
import RulesAssist.Settings
import RulesAssist.Text.Word

/-! All that an editor asks about one project: completions, symbols, coverage and hovers. -/

set_option autoImplicit false

namespace RulesAssist.Editor

open Coverage (Entry Tally Store Load)
open FilePath (Component)

structure Workspace where
  desk : Desk
  store : Store
  settings : Settings
  root : Option String

/-- What a workspace is asked in: its grammar source, the files, the directory that relative paths
start from, whether files cannot be watched, and which characters make up words. -/
structure World where
  source : Source
  files : FileTree
  directory : List Component
  refuses : Bool := false
  isWord : Char → Bool := Text.isWordChar

def World.read (world : World) (path : String) : Option String :=
  world.files.read (FilePath.resolve world.directory path) (FilePath.endsInSlash path)

structure Hover where
  contents : String
  range : Span
  deriving DecidableEq, Repr

def Hover.ofEntry (entry : Entry) : Hover :=
  { contents := Coverage.phrases entry.tallies, range := entry.span }

/-- A word without the dot at its end. -/
def dropFinalDot (word : String) : Option String :=
  match word.toList.reverse with
  | '.' :: rest => some (String.ofList rest.reverse)
  | _ => none

namespace Workspace

def empty : Workspace :=
  { desk := .empty, store := .empty, settings := .unset, root := none }

def configure (workspace : Workspace) (settings : Settings) : Workspace :=
  { workspace with settings }

def openAt (workspace : Workspace) (root : String) : Workspace :=
  { workspace with root := some root }

def ask (workspace : Workspace) (world : World) (query : Query) :
    query.Answer × Bool × Workspace :=
  let (answer, withdrawn, desk) := workspace.desk.ask world.source query
  (answer, withdrawn, { workspace with desk })

/-- What may stand next in a line up to the cursor: members after a dot, else what follows the word. -/
def completions (workspace : Workspace) (world : World) (line : String) :
    Suggestions × Workspace :=
  match Text.wordBefore line with
  | none => (none, workspace)
  | some word =>
    match dropFinalDot word with
    | some name =>
      let (answer, _, workspace) := workspace.ask world (.members name)
      (answer, workspace)
    | none =>
      let (answer, _, workspace) := workspace.ask world (.keywords word)
      (answer, workspace)

def symbolBefore (workspace : Workspace) (world : World) (line : String) :
    Option Symbol × Workspace :=
  match Text.wordBefore line with
  | none => (none, workspace)
  | some word =>
    let (answer, _, workspace) := workspace.ask world (.symbol ((dropFinalDot word).getD word))
    (answer, workspace)

def membersOf (workspace : Workspace) (world : World) (name : String) :
    List Suggestion × Workspace :=
  let (answer, _, workspace) := workspace.ask world (.members name)
  (match (answer : Suggestions) with
    | none => []
    | some items => items.content, workspace)

def coveragePage (workspace : Workspace) : Option String :=
  workspace.root.bind workspace.settings.coveragePage

/-- The innermost coverage entry at a position of a rules file. -/
def coverageAt (workspace : Workspace) (world : World) (file : String) (position : Position)
    (cancelled : Bool) : Option Entry × Workspace :=
  match workspace.coveragePage with
  | none => (none, workspace)
  | some path =>
    let load := Load.start file (FilePath.resolve world.directory path) cancelled
    let (result, store) :=
      load.run { refuses := world.refuses, content := world.read path } workspace.store
    let entry :=
      match result with
      | .error _ => none
      | .ok listing => Coverage.innermost listing.content position
    (entry, { workspace with store })

def talliesAt (workspace : Workspace) (world : World) (file : String) (position : Position)
    (cancelled : Bool) : Option (List Tally) × Workspace :=
  let (entry, workspace) := workspace.coverageAt world file position cancelled
  (entry.map (·.tallies), workspace)

def wordHover (workspace : Workspace) (world : World) (line : String) (position : Position) :
    Option Hover × Workspace :=
  match Text.touching world.isWord line position.column with
  | none => (none, workspace)
  | some columns =>
    match Text.wordIn line columns with
    | none => (none, workspace)
    | some word =>
      let (answer, withdrawn, workspace) := workspace.ask world (.documentation word)
      let range : Span := ⟨⟨position.line, columns.start⟩, ⟨position.line, columns.stop⟩⟩
      match (answer : Option String) with
      | none => (none, workspace)
      | some contents => (if withdrawn then none else some { contents, range }, workspace)

/-- Coverage at the position comes first, then the word there. A request that is cancelled has no
answer from the grammar. -/
def hover (workspace : Workspace) (world : World) (file line : String) (position : Position)
    (cancelled : Bool) : Option Hover × Workspace :=
  match workspace.coverageAt world file position cancelled with
  | (some entry, workspace) => (some (Hover.ofEntry entry), workspace)
  | (none, workspace) =>
    if cancelled then (none, workspace) else workspace.wordHover world line position

def shutdown (workspace : Workspace) : Workspace :=
  { workspace with store := workspace.store.close }

end Workspace

end RulesAssist.Editor
