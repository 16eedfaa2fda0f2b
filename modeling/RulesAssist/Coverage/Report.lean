import RulesAssist.Coverage.Observation
import RulesAssist.Json.Record
import RulesAssist.Position

/-! The report of one test run: a forest of source ranges with what was observed there. -/

set_option autoImplicit false

namespace RulesAssist.Coverage

/-- Where a range starts, counted from one, and the offsets that give its length. -/
structure SourceRange where
  line : Nat
  column : Nat
  currentOffset : Int
  endOffset : Int
  deriving DecidableEq, Repr

/-- A source range, what was observed there, and the ranges inside it. -/
structure Region where
  range : SourceRange
  tallies : List Tally
  children : List Region

/-- The rules files that were reported on, and the regions of the first one. -/
structure Report where
  files : List String
  regions : List Region

inductive Malformation where
  | unreadable
  | noFiles
  | outOfRange (range : SourceRange)
  deriving DecidableEq, Repr

namespace SourceRange

/-- The columns that each range is longer than its offsets say. -/
def columnAdjustment : Int := 2

/-- Widths are computed in 64 bits with a sign; what does not fit is refused. -/
def width? (value : Int) : Option Int :=
  if -(Json.signedLimit : Int) ≤ value ∧ value < Json.signedLimit then some value else none

def span? (range : SourceRange) : Option Span := do
  let start : Position := ⟨range.line - 1, range.column - 1⟩
  let difference ← width? (range.endOffset - range.currentOffset)
  let width ← width? (difference + columnAdjustment)
  let stop ← start.translate (max width 0).toNat
  return ⟨start, stop⟩

def spanOrError (range : SourceRange) : Except Malformation Span :=
  match range.span? with
  | some span => .ok span
  | none => .error (.outOfRange range)

def reader : Json.Reader SourceRange :=
  Json.Reader.record ["line", "column", "currentOffset", "endOffset"] fun depth slots => do
    let line ← slots.required "line" (Json.Reader.unsigned depth)
    let column ← slots.required "column" (Json.Reader.unsigned depth)
    let currentOffset ← slots.required "currentOffset" (Json.Reader.signed depth)
    let endOffset ← slots.required "endOffset" (Json.Reader.signed depth)
    return { line, column, currentOffset, endOffset }

end SourceRange

def Observation.reader : Json.Reader Observation
  | depth, tree =>
    match Json.Value.ofTree? depth tree with
    | some (.object members) => some (Observation.ofMembers members)
    | _ => none

def Tally.reader : Json.Reader Tally :=
  Json.Reader.record ["value", "count"] fun depth slots => do
    let observation ← slots.required "value" (Observation.reader depth)
    let count ← slots.required "count" (Json.Reader.unsigned depth)
    return { observation, count }

mutual

def Region.read : Nat → Json.Tree → Option Region
  | 0, _ => none
  | depth + 1, tree => do
    let slots ← Json.Slots.ofTree? ["sourcePosition", "values", "children"] tree
    let range ← slots.required "sourcePosition" (SourceRange.reader depth)
    let tallies ← slots.withDefault "values" [] (Json.Reader.list Tally.reader depth)
    let children ← slots.withDefault "children" [] (Region.readAll depth)
    return { range, tallies, children }

def Region.readAll : Nat → Json.Tree → Option (List Region)
  | 0, _ => none
  | depth + 1, tree => Json.Reader.list (fun _ => Region.read depth) (depth + 1) tree

end

namespace Report

def fileReader : Json.Reader String :=
  Json.Reader.record ["name"] fun depth slots => slots.required "name" (Json.Reader.string depth)

def filesReader : Json.Reader (List String) :=
  Json.Reader.record ["files"] fun depth slots =>
    slots.required "files" (Json.Reader.list fileReader depth)

def reader : Json.Reader Report :=
  Json.Reader.record ["rules", "report"] fun depth slots => do
    let files ← slots.required "rules" (filesReader depth)
    let regions ← slots.required "report" (Region.readAll depth)
    return { files, regions }

end Report

structure Entry where
  span : Span
  tallies : List Tally

mutual

/-- A region's entry, then the entries of its children in order. The first range that has no span
is the error. -/
def Region.entries : Region → Except Malformation (List Entry)
  | ⟨range, tallies, children⟩ => do
    let span ← range.spanOrError
    let inner ← entriesOf children
    return ⟨span, tallies⟩ :: inner

def entriesOf : List Region → Except Malformation (List Entry)
  | [] => .ok []
  | region :: rest => do
    let first ← region.entries
    let others ← entriesOf rest
    return first ++ others

end

end RulesAssist.Coverage
