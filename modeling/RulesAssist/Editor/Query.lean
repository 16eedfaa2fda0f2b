import RulesAssist.Editor.Suggestion
import RulesAssist.Keyed

/-! Questions about symbols, and the answers that are remembered.

A question is answered from memory, or else from the symbol table. What is remembered stays until the
table is compiled again.
-/

set_option autoImplicit false

namespace RulesAssist.Editor

/-- A table, known by the load that it was compiled from. -/
abbrev Compiled := Shared SymbolTable

/-- Suggestions that callers share, or none if there is nothing to offer. -/
abbrev Suggestions := Option (Shared (List Suggestion))

inductive Query where
  | table
  | recompile
  | type (name : String)
  | symbol (name : String)
  | modifiers
  | members (typeName : String)
  | keywords (directive : String)
  | documentation (word : String)
  deriving DecidableEq, Repr

def Query.Answer : Query → Type
  | .table => Option Compiled
  | .recompile => Option Compiled
  | .type _ => Option TypeSymbol
  | .symbol _ => Option Symbol
  | .modifiers => List ModifierSymbol
  | .members _ => Suggestions
  | .keywords _ => Suggestions
  | .documentation _ => Option String

def Query.force : Query → Bool
  | .recompile => true
  | _ => false

/-- The directive after which access modifiers are offered. -/
def allowDirective : String := "allow"

/-- What a remembered list was asked for. -/
inductive Topic where
  | members (typeName : String)
  | keywords (directive : String)
  deriving DecidableEq, Repr

structure Memory where
  lists : List (Topic × Suggestions)
  texts : List (String × Option String)
  fresh : Nat

namespace Memory

def empty : Memory := { lists := [], texts := [], fresh := 0 }

/-- Forget all answers. Lists made later are still told apart from those made before. -/
def clear (memory : Memory) : Memory :=
  { memory with lists := [], texts := [] }

def known? (memory : Memory) : (query : Query) → Option query.Answer
  | .table => none
  | .recompile => none
  | .type name => if name.isEmpty then some (none : Option TypeSymbol) else none
  | .symbol name => if name.isEmpty then some (none : Option Symbol) else none
  | .modifiers => none
  | .members typeName => memory.lists.lookup (.members typeName)
  | .keywords directive =>
    if directive = allowDirective then memory.lists.lookup (.keywords directive)
    else some (none : Suggestions)
  | .documentation word =>
    if word.isEmpty then some (none : Option String) else memory.texts.lookup word

/-- Keep a list under its topic, unless one is there already. An empty list is nothing to offer. -/
def keepList (memory : Memory) (topic : Topic) (items : List Suggestion) : Suggestions × Memory :=
  match memory.lists.lookup topic with
  -- Two requests may have computed the same list; the first one to be kept is shared.
  | some kept => (kept, memory)
  | none =>
    let made : Suggestions := if items.isEmpty then none else some ⟨memory.fresh, items⟩
    (made, { memory with
      lists := Keyed.insert topic made memory.lists
      fresh := memory.fresh + 1 })

def keepText (memory : Memory) (word : String) (text : Option String) : Option String × Memory :=
  match memory.texts.lookup word with
  | some kept => (kept, memory)
  | none => (text, { memory with texts := Keyed.insert word text memory.texts })

def membersIn (table : SymbolTable) (typeName : String) : List Suggestion :=
  match table.type? typeName with
  | none => []
  | some symbol => Suggestion.ofMembers symbol

/-- Answer from a table that was asked for, or without one. Without a table nothing is remembered. -/
def conclude (memory : Memory) (compiled : Option Compiled) :
    (query : Query) → query.Answer × Memory
  | .table => (compiled, memory)
  | .recompile => (compiled, memory.clear)
  | .type name => (compiled.bind fun table => table.content.type? name, memory)
  | .symbol name => (compiled.bind fun table => table.content.find? name, memory)
  | .modifiers =>
    (match compiled with
      | none => ([] : List ModifierSymbol)
      | some table => table.content.accessModifiers, memory)
  | .members typeName =>
    match compiled with
    | none => ((none : Suggestions), memory)
    | some table => memory.keepList (.members typeName) (membersIn table.content typeName)
  | .keywords directive =>
    match compiled with
    | none => ((none : Suggestions), memory)
    | some table =>
      memory.keepList (.keywords directive) (table.content.accessModifiers.map Suggestion.ofModifier)
  | .documentation word =>
    match compiled with
    | none => ((none : Option String), memory)
    | some table => memory.keepText word ((table.content.find? word).map Symbol.about)

end Memory

end RulesAssist.Editor
