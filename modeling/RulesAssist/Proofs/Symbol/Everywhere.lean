import RulesAssist.Proofs.Symbol.Composition
import RulesAssist.Proofs.Symbol.Registration

/-! What holds of a type and of everything in its fields. -/

set_option autoImplicit false

namespace RulesAssist

namespace TypeSymbol

mutual

def Everywhere (holds : TypeSymbol → Prop) : TypeSymbol → Prop
  | ⟨identity, about, methods, none, basic⟩ => holds ⟨identity, about, methods, none, basic⟩
  | ⟨identity, about, methods, some fields, basic⟩ =>
    holds ⟨identity, about, methods, some fields, basic⟩ ∧ fieldsEverywhere holds fields

def fieldsEverywhere (holds : TypeSymbol → Prop) : List (String × TypeSymbol) → Prop
  | [] => True
  | (_, field) :: rest => field.Everywhere holds ∧ fieldsEverywhere holds rest

end

variable {holds others : TypeSymbol → Prop}

theorem fieldsEverywhere_iff {fields : List (String × TypeSymbol)} :
    fieldsEverywhere holds fields ↔ ∀ entry ∈ fields, entry.2.Everywhere holds := by
  induction fields with
  | nil => simp [fieldsEverywhere]
  | cons entry rest ih => simp [fieldsEverywhere, ih]

theorem everywhere_iff {symbol : TypeSymbol} : symbol.Everywhere holds ↔
    holds symbol ∧ ∀ fields, symbol.fields = some fields →
      ∀ entry ∈ fields, entry.2.Everywhere holds := by
  obtain ⟨identity, about, methods, fields, basic⟩ := symbol
  cases fields with
  | none => simp [Everywhere]
  | some fields => simp [Everywhere, fieldsEverywhere_iff]

theorem everywhere_of_composes {symbol : TypeSymbol} {inherited : Option TypeSymbol}
    {own : Option (List (String × TypeDecl))} (here : holds symbol)
    (basic : ∀ type, inherited = some type → type.Everywhere holds)
    (composes : Composes (fun _ _ field => field.Everywhere holds) (inherited.bind (·.fields)) own
      symbol.fields) : symbol.Everywhere holds := by
  refine everywhere_iff.mpr ⟨here, fun fields had entry member => ?_⟩
  obtain ⟨start, drawn, before⟩ | ⟨_, _, _, _, new⟩ := composes.exists_of_mem had member
  · obtain ⟨type, rfl, owned⟩ := Option.bind_eq_some_iff.mp drawn
    exact (everywhere_iff.mp (basic type rfl)).2 start owned entry before
  · exact new

mutual

theorem Everywhere.mono (implied : ∀ symbol, holds symbol → others symbol) :
    ∀ symbol : TypeSymbol, symbol.Everywhere holds → symbol.Everywhere others
  | ⟨_, _, _, none, _⟩, here => implied _ here
  | ⟨_, _, _, some fields, _⟩, ⟨here, below⟩ => ⟨implied _ here, fieldsEverywhere_mono implied fields below⟩

theorem fieldsEverywhere_mono (implied : ∀ symbol, holds symbol → others symbol) :
    ∀ fields : List (String × TypeSymbol), fieldsEverywhere holds fields → fieldsEverywhere others fields
  | [], _ => trivial
  | (_, field) :: rest, ⟨first, later⟩ =>
    ⟨Everywhere.mono implied field first, fieldsEverywhere_mono implied rest later⟩

end

mutual

theorem Everywhere.everywhere : ∀ symbol : TypeSymbol, symbol.Everywhere holds →
    symbol.Everywhere fun inner => inner.Everywhere holds
  | ⟨_, _, _, none, _⟩, here => here
  | ⟨_, _, _, some fields, _⟩, ⟨here, below⟩ => ⟨⟨here, below⟩, fieldsEverywhere_everywhere fields below⟩

theorem fieldsEverywhere_everywhere : ∀ fields : List (String × TypeSymbol),
    fieldsEverywhere holds fields → fieldsEverywhere (fun inner => inner.Everywhere holds) fields
  | [], _ => trivial
  | (_, field) :: rest, ⟨first, later⟩ =>
    ⟨Everywhere.everywhere field first, fieldsEverywhere_everywhere rest later⟩

end

mutual

theorem Everywhere.registrations : ∀ (symbol : TypeSymbol) (name path : String),
    symbol.Everywhere holds → ∀ entry ∈ symbol.registrations name path, holds entry.2
  | ⟨_, _, _, none, _⟩, _, _, here => by
    intro entry member
    rcases List.mem_cons.mp member with rfl | later
    · exact here
    · exact List.mem_singleton.mp later ▸ here
  | ⟨_, _, _, some fields, _⟩, _, path, ⟨here, below⟩ => by
    intro entry member
    rcases List.mem_cons.mp member with rfl | later
    · exact here
    · rcases List.mem_cons.mp later with rfl | lower
      · exact here
      · exact fieldsEverywhere_registrations fields path below entry lower

theorem fieldsEverywhere_registrations : ∀ (fields : List (String × TypeSymbol)) (path : String),
    fieldsEverywhere holds fields → ∀ entry ∈ fieldRegistrations path fields, holds entry.2
  | [], _, _ => nofun
  | (key, field) :: rest, path, ⟨first, later⟩ => by
    intro entry member
    rcases List.mem_append.mp member with here | below
    · exact Everywhere.registrations field key (dotted path key) first entry here
    · exact fieldsEverywhere_registrations rest path later entry below

end

end TypeSymbol

/-- What holds of everything in the roots holds of everything that a name stands for. -/
theorem SymbolTable.holds_of_type? {holds : TypeSymbol → Prop} {grammar : Grammar} {name : String}
    {symbol : TypeSymbol} (everywhere : ∀ root ∈ (Workshop.run grammar).1, root.2.Everywhere holds)
    (found : (compile grammar).type? name = some symbol) : holds symbol := by
  rw [type?_compile] at found
  obtain ⟨root, member, registered⟩ :=
    List.mem_flatMap.mp (List.mem_reverse.mp (Keyed.mem_of_lookup found))
  exact TypeSymbol.Everywhere.registrations root.2 root.1 root.1 (everywhere root member) _ registered

end RulesAssist
