import RulesAssist.Grammar.Reader

/-! Where grammars come from: a source that is asked again for every compilation. -/

set_option autoImplicit false

namespace RulesAssist

inductive GrammarError where
  | malformed
  | source (reason : String)
  deriving DecidableEq, Repr

/-- What a wording says about an error of the source; a malformed text has no wording of its own. -/
def GrammarError.message? : GrammarError → Option String
  | .malformed => none
  | .source reason => some ("grammar source failed: " ++ reason)

/-- What one load brings, and whether it makes the editor withdraw its request. -/
structure Delivery where
  outcome : Except GrammarError Grammar
  withdraws : Bool

abbrev Source := Nat → Delivery

def Grammar.ofText (text : String) : Except GrammarError Grammar :=
  match Grammar.parse text with
  | some grammar => .ok grammar
  | none => .error .malformed

/-- Loads that bring the deliveries of a list in order, the last one over and over. -/
def Source.ofList (default : Delivery) (deliveries : List Delivery) : Source := fun load =>
  (deliveries[min load (deliveries.length - 1)]?).getD default

end RulesAssist
