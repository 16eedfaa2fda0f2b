import RulesAssist.Proofs.Symbol.Registration
import RulesAssist.Proofs.Symbol.Survey

/-! Compiled types have distinct keys without dots.

This is so whatever the basic types refer to: own fields are written over inherited ones, so a key stays where
it is. A dotted name is then a path from a root, and finds what its keys lead to.
-/

set_option autoImplicit false

namespace RulesAssist

/-- Fields that may be registered, or inherited and merged with others. -/
structure FieldsNeat (fields : List (String × TypeSymbol)) : Prop where
  distinct : (Keyed.keys fields).Nodup
  plain : ∀ key ∈ Keyed.keys fields, Plain key
  tidy : fieldsTidy fields

theorem fieldsTidy_iff {fields : List (String × TypeSymbol)} :
    fieldsTidy fields ↔ ∀ entry ∈ fields, entry.2.Tidy := by
  induction fields with
  | nil => simp [fieldsTidy]
  | cons entry rest ih => simp [fieldsTidy, ih]

theorem TypeSymbol.tidy_iff {symbol : TypeSymbol} :
    symbol.Tidy ↔ ∀ fields, symbol.fields = some fields → FieldsNeat fields := by
  obtain ⟨identity, about, methods, fields, basic⟩ := symbol
  cases fields with
  | none => simp [TypeSymbol.Tidy]
  | some fields =>
    constructor
    · rintro ⟨distinct, plain, tidy⟩ _ ⟨⟩
      exact ⟨distinct, plain, tidy⟩
    · intro neat
      obtain ⟨distinct, plain, tidy⟩ := neat fields rfl
      exact ⟨distinct, plain, tidy⟩

theorem FieldsNeat.nil : FieldsNeat [] where
  distinct := List.nodup_nil
  plain := nofun
  tidy := trivial

theorem FieldsNeat.merge {fields symbols : List (String × TypeSymbol)} (neat : FieldsNeat fields)
    {own : List (String × TypeDecl)} (plain : ∀ field ∈ own, Plain field.1)
    (each : Each (fun _ _ symbol => symbol.Tidy) symbols own) :
    FieldsNeat (Keyed.merge fields symbols) where
  distinct := Keyed.nodup_keys_merge neat.distinct symbols
  plain := by
    intro key member
    obtain ⟨entry, listed, rfl⟩ := List.mem_map.mp member
    rcases Keyed.mem_merge listed with before | new
    · exact neat.plain entry.1 (List.mem_map_of_mem before)
    · obtain ⟨decl, declared, _⟩ := each.exists_of_mem new
      exact plain _ declared
  tidy := by
    refine fieldsTidy_iff.mpr fun entry listed => ?_
    rcases Keyed.mem_merge listed with before | new
    · exact fieldsTidy_iff.mp neat.tidy entry before
    · obtain ⟨_, _, tidy⟩ := each.exists_of_mem new
      exact tidy

namespace Workshop

open Course

variable {grammar : Grammar}

def tidying (grammar : Grammar) (tale : List Deed) : Survey grammar tale Unit where
  stands _ decl := decl.Throughout fun fields => ∀ field ∈ fields, Plain field.1
  sound _ := True
  later _ _ _ := True
  begun _ _ _ inherited _ := ∀ basic, inherited = some basic → basic.Tidy
  right _ _ _ symbol := symbol.Tidy

theorem tidying_lawful (undotted : grammar.Undotted) (tale : List Deed) :
    (tidying grammar tale).Lawful where
  passes.basic := fun _ _ found => undotted.basicFields _ (Keyed.mem_of_lookup found)
  passes.root := undotted.fields
  passes.field := fun _ _ _ plain own => (TypeDecl.throughout_iff.mp plain _ own).2
  refl _ := trivial
  trans _ _ := trivial
  begun_later _ begun := begun
  right_later _ tidy := tidy
  lose _ _ _ _ _ _ _ _ := ⟨(), trivial, trivial⟩
  equip := by
    intro now place decl inherited taken good _ base _
    refine ⟨(), trivial, trivial, ?_⟩
    rintro basic rfl
    obtain ⟨_, _, _, _, tidy⟩ := good.inherited base
    exact tidy
  finish := by
    intro now place decl inherited table fields _ plain tidy composes _ _
    refine ⟨(), trivial, trivial, TypeSymbol.tidy_iff.mpr ?_⟩
    have start : ∀ all, inherited.bind (·.fields) = some all → FieldsNeat all := by
      intro all had
      obtain ⟨basic, rfl, own⟩ := Option.bind_eq_some_iff.mp had
      exact TypeSymbol.tidy_iff.mp (tidy basic rfl) all own
    generalize inherited.bind (·.fields) = drawn at start composes
    generalize declared : decl.fields = own at composes
    cases composes with
    | bare => exact start
    | merged each =>
      rintro _ ⟨⟩
      refine FieldsNeat.merge ?_ (TypeDecl.throughout_iff.mp plain _ declared).1 each
      cases drawn with
      | none => exact .nil
      | some all => exact start all rfl
  keep _ _ _ _ _ _ _ _ := ⟨(), trivial, trivial⟩

theorem tidy_run (undotted : grammar.Undotted) :
    Keyed.keys (run grammar).1 = Keyed.keys grammar.types ∧ fieldsTidy (run grammar).1 := by
  obtain ⟨deeds, compiles⟩ := exists_run grammar
  obtain ⟨_, _, _, each⟩ := (tidying_lawful undotted deeds).run compiles () trivial
  refine ⟨each.keys_eq, fieldsTidy_iff.mpr fun entry member => ?_⟩
  obtain ⟨_, _, tidy⟩ := each.exists_of_mem member
  exact tidy

end Workshop

namespace SymbolTable

variable {grammar : Grammar}

/-- A path from a root finds what its keys lead to, in any grammar without dots. -/
theorem type?_of_keys (distinct : grammar.Distinct) (undotted : grammar.Undotted) {root : String}
    {keys : List String} (rooted : Plain root) (plain : ∀ key ∈ keys, Plain key)
    (nonempty : keys ≠ []) : (compile grammar).type? (pathOf root keys) =
      ((Workshop.run grammar).1.lookup root).bind (TypeSymbol.reach? keys) := by
  obtain ⟨same, tidy⟩ := Workshop.tidy_run undotted
  rw [type?_compile]
  refine last?_registrationsOf ?_ ?_ tidy rooted plain nonempty
  · rw [same]
    exact distinct.types
  · rw [same]
    exact List.forall_mem_map.mpr undotted.types

end SymbolTable

end RulesAssist
