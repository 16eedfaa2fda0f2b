import RulesAssist.Coverage.Report

/-! The page that the emulator writes: a report as JSON between two fixed pieces of script. -/

set_option autoImplicit false

namespace RulesAssist.Coverage

def cutAt? (mark : List Char) : List Char → Option (List Char × List Char)
  | [] => if mark.isEmpty then some ([], []) else none
  | char :: rest =>
    if mark.isPrefixOf (char :: rest) then some ([], (char :: rest).drop mark.length)
    else (cutAt? mark rest).map fun (before, after) => (char :: before, after)

inductive Marker where
  | start
  | stop
  deriving DecidableEq, Repr

namespace Marker

/-- The script right before the report, and the script right after it. -/
def text : Marker → String
  | .start => "// Populated by the emulator at runtime\nconst data = "
  | .stop => ";\n\nconst REPORT_LIMIT_SIZE"

def name : Marker → String
  | .start => "const data ="
  | .stop => "const REPORT_LIMIT_SIZE"

end Marker

inductive PageError where
  | missingMarker (marker : Marker)
  | malformed (malformation : Malformation)
  | otherSource (expected found : String)
  deriving DecidableEq, Repr

namespace Page

def payload (page : String) : Except PageError String :=
  match cutAt? Marker.start.text.toList page.toList with
  | none => .error (.missingMarker .start)
  | some (_, rest) =>
    match cutAt? Marker.stop.text.toList rest with
    | none => .error (.missingMarker .stop)
    | some (report, _) => .ok (String.ofList report)

def report (page : String) : Except PageError Report := do
  let text ← payload page
  match Report.reader.parse text with
  | some report => .ok report
  | none => .error (.malformed .unreadable)

/-- The entries of a page that reports on the given file: on the first file that it lists. -/
def entries (page file : String) : Except PageError (List Entry) := do
  let report ← report page
  match report.files with
  | [] => .error (.malformed .noFiles)
  | found :: _ =>
    if found ≠ file then .error (.otherSource file found)
    else (entriesOf report.regions).mapError .malformed

end Page

end RulesAssist.Coverage
