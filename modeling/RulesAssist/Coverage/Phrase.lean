import RulesAssist.Coverage.Observation

/-! Observations in words. -/

set_option autoImplicit false

namespace RulesAssist.Coverage

def timesPhrase (count : Nat) : String :=
  if count = 1 then "once" else toString count ++ " times"

def Tally.phrase (tally : Tally) : String :=
  let times := timesPhrase tally.count
  match tally.observation with
  | .error cause => "Error '" ++ cause ++ "' occurred " ++ times
  | .compound kind => "`[" ++ kind.tag ++ "]` returned " ++ times
  | .literal _ value => "`" ++ value.render ++ "` returned " ++ times
  | .shortCircuited => "Expression short-circuited " ++ times
  | .unrecognized _ => ""

/-- Two blanks before the end of a line make it a line break of its own. -/
def lineBreak : String := "  \n"

def phrases : List Tally → String
  | [] => "Expression never evaluated"
  | tallies => lineBreak.intercalate (tallies.map Tally.phrase)

end RulesAssist.Coverage
