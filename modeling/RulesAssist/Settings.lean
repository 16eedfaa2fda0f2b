import RulesAssist.FilePath
import RulesAssist.Json.Record

/-! The editor settings that matter here, read from the editor's own JSON.

Keys are flat, dotted names. Keys of other extensions are passed over.
-/

set_option autoImplicit false

namespace RulesAssist

structure Settings where
  coverageFile : Option String
  deriving DecidableEq, Repr

namespace Settings

def unset : Settings := { coverageFile := none }

def coverageKey : String := "firebase.coverageFile"

def reader : Json.Reader Settings :=
  Json.Reader.record [coverageKey] fun depth slots => do
    let coverageFile ← slots.withDefault coverageKey none (Json.Reader.optional Json.Reader.string depth)
    return { coverageFile }

def parse (text : String) : Option Settings :=
  reader.parse text

def setCoverageFile (settings : Settings) (path : String) : Settings :=
  { settings with coverageFile := some path }

/-- The coverage file below a project root. An empty setting counts as unset. -/
def coveragePage (settings : Settings) (root : String) : Option String := do
  let file ← settings.coverageFile
  if file.isEmpty then none else some (FilePath.join root file)

end Settings

end RulesAssist
