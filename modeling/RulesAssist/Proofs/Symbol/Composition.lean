import RulesAssist.Proofs.Grammar.Occurrence
import RulesAssist.Symbol.TypeSymbol

/-! The fields of a compiled type.

A type has a field for each field of its declaration, over the fields that it inherits: one of the same key is
replaced in its place, and the others stay.
-/

set_option autoImplicit false

namespace RulesAssist

theorem exists_of_forall₂ {First Second : Type} {related : First → Second → Prop} {items : List First}
    {others : List Second} (all : List.Forall₂ related items others) {item : First}
    (member : item ∈ items) : ∃ other ∈ others, related item other := by
  induction all with
  | nil => cases member
  | cons same _ ih =>
    rcases List.mem_cons.mp member with rfl | later
    · exact ⟨_, List.mem_cons_self .., same⟩
    · obtain ⟨other, listed, holds⟩ := ih later
      exact ⟨other, List.mem_cons_of_mem _ listed, holds⟩

variable {right others : String → TypeDecl → TypeSymbol → Prop}

/-- Types for declarations, one by one and under the same keys. -/
def Each (right : String → TypeDecl → TypeSymbol → Prop) (symbols : List (String × TypeSymbol))
    (decls : List (String × TypeDecl)) : Prop :=
  List.Forall₂ (fun symbol decl => symbol.1 = decl.1 ∧ right decl.1 decl.2 symbol.2) symbols decls

namespace Each

variable {symbols : List (String × TypeSymbol)} {decls : List (String × TypeDecl)}

theorem mono (each : Each right symbols decls)
    (implied : ∀ key decl symbol, right key decl symbol → others key decl symbol) :
    Each others symbols decls :=
  each.imp fun _ _ held => ⟨held.1, implied _ _ _ held.2⟩

theorem keys_eq (each : Each right symbols decls) : Keyed.keys symbols = Keyed.keys decls := by
  induction each with
  | nil => rfl
  | cons held _ ih => exact congrArg₂ List.cons held.1 ih

theorem lookup (each : Each right symbols decls) (key : String) :
    Option.Rel (fun symbol decl => right key decl symbol) (symbols.lookup key) (decls.lookup key) := by
  induction each with
  | nil => exact .none
  | @cons symbol decl _ _ held _ ih =>
    obtain ⟨name, symbol⟩ := symbol
    obtain ⟨_, decl⟩ := decl
    obtain ⟨rfl, here⟩ := held
    rw [Keyed.lookup_cons, Keyed.lookup_cons]
    split
    · rename_i same
      exact .some (same ▸ here)
    · exact ih

theorem exists_of_lookup (each : Each right symbols decls) {key : String} {decl : TypeDecl}
    (listed : decls.lookup key = some decl) :
    ∃ symbol, symbols.lookup key = some symbol ∧ right key decl symbol := by
  have same := each.lookup key
  rw [listed] at same
  generalize symbols.lookup key = symbol at same
  cases same with
  | some held => exact ⟨_, rfl, held⟩

theorem exists_of_mem (each : Each right symbols decls) {entry : String × TypeSymbol}
    (member : entry ∈ symbols) : ∃ decl, (entry.1, decl) ∈ decls ∧ right entry.1 decl entry.2 := by
  obtain ⟨⟨key, decl⟩, declared, same, held⟩ := exists_of_forall₂ each member
  cases same
  exact ⟨decl, declared, held⟩

end Each

/-- The fields of a type: those that it inherits, and its own over them. -/
inductive Composes (right : String → TypeDecl → TypeSymbol → Prop)
    (inherited : Option (List (String × TypeSymbol))) :
    Option (List (String × TypeDecl)) → Option (List (String × TypeSymbol)) → Prop where
  | bare : Composes right inherited none inherited
  | merged {own : List (String × TypeDecl)} {symbols : List (String × TypeSymbol)} :
      Each right symbols own →
      Composes right inherited (some own) (some (Keyed.merge (inherited.getD []) symbols))

namespace Composes

variable {inherited fields : Option (List (String × TypeSymbol))} {own : Option (List (String × TypeDecl))}

theorem mono (composes : Composes right inherited own fields)
    (implied : ∀ key decl symbol, right key decl symbol → others key decl symbol) :
    Composes others inherited own fields := by
  cases composes with
  | bare => exact .bare
  | merged each => exact .merged (each.mono implied)

theorem found (composes : Composes right inherited own fields)
    (distinct : ∀ decls, own = some decls → (Keyed.keys decls).Nodup) {key : String} {decl : TypeDecl}
    (listed : (own.bind fun decls => decls.lookup key) = some decl) :
    ∃ symbol, (fields.bind fun fields => fields.lookup key) = some symbol ∧ right key decl symbol := by
  cases composes with
  | bare => cases listed
  | @merged decls symbols each =>
    obtain ⟨symbol, found, held⟩ := each.exists_of_lookup listed
    refine ⟨symbol, ?_, held⟩
    rw [Option.bind_some, Keyed.lookup_merge,
      Keyed.last?_eq_lookup (each.keys_eq ▸ distinct decls rfl), found]
    rfl

theorem kept (composes : Composes right inherited own fields) {key : String}
    (missing : (own.bind fun decls => decls.lookup key) = none) :
    (fields.bind fun fields => fields.lookup key) = inherited.bind fun fields => fields.lookup key := by
  cases composes with
  | bare => rfl
  | @merged decls symbols each =>
    have unlisted : Keyed.last? symbols key = none := by
      refine Keyed.last?_eq_none fun entry member same => ?_
      have known : entry.1 ∈ Keyed.keys decls := each.keys_eq ▸ List.mem_map_of_mem member
      obtain ⟨decl, declared, equal⟩ := List.mem_map.mp known
      have apart := List.lookup_eq_none_iff.mp (show decls.lookup key = none from missing) decl declared
      simp [equal, same] at apart
    rw [Option.bind_some, Keyed.lookup_merge, unlisted, Option.none_or]
    cases inherited <;> rfl

theorem exists_of_mem (composes : Composes right inherited own fields)
    {all : List (String × TypeSymbol)} (had : fields = some all) {entry : String × TypeSymbol}
    (member : entry ∈ all) : (∃ start, inherited = some start ∧ entry ∈ start) ∨
      ∃ decls decl, own = some decls ∧ (entry.1, decl) ∈ decls ∧ right entry.1 decl entry.2 := by
  cases composes with
  | bare => exact .inl ⟨all, had, member⟩
  | merged each =>
    cases had
    rcases Keyed.mem_merge member with before | new
    · refine .inl ?_
      cases inherited with
      | none => cases before
      | some start => exact ⟨start, rfl, before⟩
    · obtain ⟨decl, declared, held⟩ := each.exists_of_mem new
      exact .inr ⟨_, decl, rfl, declared, held⟩

end Composes

end RulesAssist
