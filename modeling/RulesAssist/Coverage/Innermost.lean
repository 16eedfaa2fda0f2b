import RulesAssist.Coverage.Report

/-! Choosing the innermost of the entries around a position. -/

set_option autoImplicit false

namespace RulesAssist.Coverage

def narrow (chosen : Option Entry) (next : Entry) : Option Entry :=
  match chosen with
  | none => some next
  | some entry => if entry.span.covers next.span then some next else some entry

/-- The entry that the others around the position contain; of equal spans the last one. -/
def innermost (entries : List Entry) (position : Position) : Option Entry :=
  (entries.filter fun entry => entry.span.contains position).foldl narrow none

def talliesAt (entries : List Entry) (position : Position) : Option (List Tally) :=
  (innermost entries position).map (·.tallies)

end RulesAssist.Coverage
