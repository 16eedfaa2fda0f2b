import RulesAssist.Proofs.Grammar.Reference
import RulesAssist.Symbol.TypeSymbol

/-! When a compiled type says what a declaration says.

A compiled type shows a declaration if it has its description and members, and if each of its fields
shows the declaration that the field stands for.
-/

set_option autoImplicit false

namespace RulesAssist

/-- The methods of a table, whichever objects hold them. -/
def contentsOf (table : MethodTable) : List (String × MethodInfo) :=
  table.map fun entry => (entry.1, entry.2.content)

def infosOf (methods : List (String × MethodDecl)) : List (String × MethodInfo) :=
  methods.map fun entry => (entry.1, MethodInfo.ofDecl entry.1 entry.2)

/-- A compiled method says what its declaration says. It has a snippet that calls it by its name if its
parameters are declared, and none otherwise. -/
structure MethodInfo.Describes (info : MethodInfo) (name : String) (decl : MethodDecl) : Prop where
  about : info.about = decl.about
  parameters : info.parameters = decl.parameters
  returns : info.returns = decl.returns
  snippet : info.snippet = decl.parameters.map (snippetFor name)

/-- A table has the declared methods in the order in which they are declared. -/
def MethodTable.Describes (table : MethodTable) (methods : List (String × MethodDecl)) : Prop :=
  List.Forall₂ (fun entry method => entry.1 = method.1 ∧ entry.2.content.Describes method.1 method.2)
    table methods

/-- A compiled type has the description, the methods and the field keys of a declaration. -/
structure TypeSymbol.Describes (grammar : Grammar) (symbol : TypeSymbol) (decl : TypeDecl) : Prop where
  about : symbol.about = decl.about
  basicTypeRef : symbol.basicTypeRef = decl.basicTypeRef
  members : ∃ methods fields, grammar.Members decl methods fields ∧
    Option.Rel (fun table methods => MethodTable.Describes table.content methods) symbol.methods methods ∧
    symbol.fields.map Keyed.keys = fields.map Keyed.keys

theorem contents_eq_iff {content : MethodTable} {methods : List (String × MethodDecl)} :
    contentsOf content = infosOf methods ↔
      List.Forall₂ (fun entry method => entry.1 = method.1 ∧
        entry.2.content = MethodInfo.ofDecl method.1 method.2) content methods := by
  unfold contentsOf infosOf
  rw [← List.forall₂_eq_eq_eq, List.forall₂_map_left_iff, List.forall₂_map_right_iff]
  simp only [Prod.mk.injEq]

theorem MethodInfo.describes_iff {info : MethodInfo} {name : String} {decl : MethodDecl} :
    info.Describes name decl ↔ info = MethodInfo.ofDecl name decl := by
  constructor
  · obtain ⟨about, parameters, returns, snippet⟩ := info
    rintro ⟨rfl, rfl, rfl, rfl⟩
    rfl
  · rintro rfl
    exact ⟨rfl, rfl, rfl, rfl⟩

theorem MethodTable.describes_iff {content : MethodTable} {methods : List (String × MethodDecl)} :
    MethodTable.Describes content methods ↔ contentsOf content = infosOf methods := by
  rw [contents_eq_iff]
  simp only [MethodTable.Describes, MethodInfo.describes_iff]

theorem rel_describes_of_contents {table : Option (Shared MethodTable)}
    {methods : Option (List (String × MethodDecl))}
    (same : table.map (fun table => contentsOf table.content) = methods.map infosOf) :
    Option.Rel (fun table methods => MethodTable.Describes table.content methods) table methods := by
  cases table with
  | none =>
    cases methods with
    | none => exact .none
    | some methods => cases same
  | some table =>
    cases methods with
    | none => cases same
    | some methods => exact .some (MethodTable.describes_iff.mpr (Option.some.inj same))

mutual

/-- A compiled type describes a declaration, and so do all that its fields lead to. -/
inductive Shows (grammar : Grammar) : TypeSymbol → TypeDecl → Prop where
  | bare {identity : Nat} {table : Option (Shared MethodTable)} {decl : TypeDecl}
      {methods : Option (List (String × MethodDecl))} :
      grammar.Members decl methods none →
      table.map (fun table => contentsOf table.content) = methods.map infosOf →
      Shows grammar ⟨identity, decl.about, table, none, decl.basicTypeRef⟩ decl
  | composed {identity : Nat} {table : Option (Shared MethodTable)} {decl : TypeDecl}
      {methods : Option (List (String × MethodDecl))} {symbols : List (String × TypeSymbol)}
      {fields : List (String × TypeDecl)} :
      grammar.Members decl methods (some fields) →
      table.map (fun table => contentsOf table.content) = methods.map infosOf →
      ShowsAll grammar symbols fields →
      Shows grammar ⟨identity, decl.about, table, some symbols, decl.basicTypeRef⟩ decl

inductive ShowsAll (grammar : Grammar) :
    List (String × TypeSymbol) → List (String × TypeDecl) → Prop where
  | nil : ShowsAll grammar [] []
  | cons {key : String} {symbol : TypeSymbol} {decl : TypeDecl}
      {symbols : List (String × TypeSymbol)} {fields : List (String × TypeDecl)} :
      Shows grammar symbol decl → ShowsAll grammar symbols fields →
      ShowsAll grammar ((key, symbol) :: symbols) ((key, decl) :: fields)

end

namespace ShowsAll

variable {grammar : Grammar} {symbols : List (String × TypeSymbol)} {fields : List (String × TypeDecl)}

theorem keys_eq (shows : ShowsAll grammar symbols fields) : Keyed.keys symbols = Keyed.keys fields := by
  induction fields generalizing symbols with
  | nil =>
    cases shows
    rfl
  | cons entry rest ih =>
    cases shows with
    | cons _ others => exact congrArg (_ :: ·) (ih others)

theorem insert (shows : ShowsAll grammar symbols fields) {symbol : TypeSymbol} {decl : TypeDecl}
    (shown : Shows grammar symbol decl) (key : String) :
    ShowsAll grammar (Keyed.insert key symbol symbols) (Keyed.insert key decl fields) := by
  induction fields generalizing symbols with
  | nil =>
    cases shows
    exact .cons shown .nil
  | cons entry rest ih =>
    cases shows with
    | cons first others =>
      unfold Keyed.insert
      split
      · exact .cons shown others
      · exact .cons first (ih others)

theorem lookup (shows : ShowsAll grammar symbols fields) (key : String) :
    Option.Rel (Shows grammar) (symbols.lookup key) (fields.lookup key) := by
  induction fields generalizing symbols with
  | nil =>
    cases shows
    exact .none
  | cons entry rest ih =>
    cases shows with
    | cons first others =>
      rw [List.lookup_cons, List.lookup_cons]
      split
      · exact .some first
      · exact ih others

end ShowsAll

theorem Shows.describes {grammar : Grammar} {symbol : TypeSymbol} {decl : TypeDecl}
    (shows : Shows grammar symbol decl) : symbol.Describes grammar decl := by
  cases shows with
  | bare members methods => exact ⟨rfl, rfl, _, _, members, rel_describes_of_contents methods, rfl⟩
  | composed members methods fields =>
    exact ⟨rfl, rfl, _, _, members, rel_describes_of_contents methods, congrArg some fields.keys_eq⟩

end RulesAssist
