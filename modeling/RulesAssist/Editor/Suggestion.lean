import RulesAssist.Symbol.Table

/-! What an editor offers while a word is being typed. -/

set_option autoImplicit false

namespace RulesAssist.Editor

inductive SuggestionKind where
  | field
  | method
  | keyword
  deriving DecidableEq, Repr

def SuggestionKind.protocolNumber : SuggestionKind → Nat
  | .method => 2
  | .field => 5
  | .keyword => 14

structure Suggestion where
  label : String
  kind : SuggestionKind
  documentation : Option String
  insertText : Option String
  deriving DecidableEq, Repr

/-- Backquote and asterisk, with which code and emphasis are marked. -/
def isMark (char : Char) : Bool :=
  char == '\x60' || char == '*'

def plainText (text : String) : String :=
  String.ofList (text.toList.filter fun char => !isMark char)

namespace Suggestion

def ofField (name : String) (field : TypeSymbol) : Suggestion :=
  { label := name, kind := .field, documentation := some (plainText field.about), insertText := none }

def ofMethod (name : String) (method : MethodInfo) : Suggestion :=
  { label := name
    kind := .method
    documentation := some (plainText method.about)
    insertText := method.snippet }

def ofModifier (modifier : ModifierSymbol) : Suggestion :=
  { label := modifier.name
    kind := .keyword
    documentation := some (plainText modifier.about)
    insertText := none }

def ofMembers (symbol : TypeSymbol) : List Suggestion :=
  (symbol.fields.getD []).map (fun entry => ofField entry.1 entry.2) ++
    ((symbol.methods.map (·.content)).getD []).map fun entry => ofMethod entry.1 entry.2.content

end Suggestion

end RulesAssist.Editor
