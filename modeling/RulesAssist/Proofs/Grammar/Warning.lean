import RulesAssist.Grammar.Warning
import RulesAssist.Proofs.Grammar.Occurrence
import RulesAssist.Proofs.Grammar.Walk

/-! Which warnings a grammar gets.

Every declaration of the grammar is visited at its path, and every name that leads back to itself is
reported.
-/

set_option autoImplicit false

namespace RulesAssist.Grammar

variable {grammar : Grammar}

theorem targets_basicTypeGraph (grammar : Grammar) (name : String) :
    grammar.basicTypeGraph.targets name =
      ((grammar.basicTypes.lookup name).map TypeDecl.references).getD [] := by
  unfold basicTypeGraph NameGraph.targets
  congr 1
  induction grammar.basicTypes with
  | nil => rfl
  | cons entry rest ih =>
    rw [List.map_cons, Keyed.lookup_cons, Keyed.lookup_cons, ih]
    split <;> rfl

theorem steps_basicTypeGraph : grammar.basicTypeGraph.Steps = grammar.Refers := by
  funext name target
  apply propext
  unfold NameGraph.Steps Refers
  rw [targets_basicTypeGraph]
  cases grammar.basicTypes.lookup name with
  | none => simp
  | some decl => simp

theorem basicTypeCycle_mem {name : String} (circle : Relation.TransGen grammar.Refers name name) :
    Warning.basicTypeCycle name ∈ grammar.warnings := by
  obtain ⟨next, ⟨decl, found, _⟩, _⟩ := Relation.TransGen.head'_iff.mp circle
  have returns : grammar.basicTypeGraph.returnsTo name = true := by
    rw [NameGraph.returnsTo_iff, steps_basicTypeGraph]
    exact circle
  have listed : Warning.basicTypeCycle name ∈ grammar.basicTypeCycles :=
    List.mem_map_of_mem (List.mem_filter.mpr ⟨Keyed.mem_of_lookup found, returns⟩)
  unfold warnings
  simp only [List.mem_append]
  exact .inl (.inl (.inr listed))

/-- A modifier of the first name includes the second name, and some modifier bears that. -/
def Includes (grammar : Grammar) (name target : String) : Prop :=
  ∃ modifier ∈ grammar.accessModifiers, modifier.name = name ∧
    target ∈ modifier.includeNames.getD [] ∧ grammar.hasModifier target = true

theorem targets_modifierGraph {modifier : ModifierDecl} (member : modifier ∈ grammar.accessModifiers) :
    grammar.modifierGraph.targets modifier.name = grammar.includedBy modifier.name := by
  unfold modifierGraph NameGraph.targets
  -- Modifiers of one name have one and the same list, so it does not matter which comes first.
  generalize grammar.includedBy = included
  generalize grammar.accessModifiers = modifiers at member ⊢
  induction modifiers with
  | nil => cases member
  | cons first rest ih =>
    rw [List.map_cons, Keyed.lookup_cons]
    split
    · rename_i same
      rw [same, Option.getD_some]
    · rename_i apart
      rcases List.mem_cons.mp member with rfl | later
      · exact absurd rfl apart
      · exact ih later

theorem steps_modifierGraph {name target : String} (includes : grammar.Includes name target) :
    grammar.modifierGraph.Steps name target := by
  obtain ⟨modifier, member, rfl, named, known⟩ := includes
  unfold NameGraph.Steps
  rw [targets_modifierGraph member]
  refine List.mem_flatMap.mpr ⟨modifier, List.mem_filter.mpr ⟨member, by simp⟩, ?_⟩
  exact List.mem_filter.mpr ⟨named, known⟩

theorem includeCycle_mem {name : String} (circle : Relation.TransGen grammar.Includes name name) :
    Warning.includeCycle name ∈ grammar.warnings := by
  obtain ⟨next, ⟨modifier, member, same, _⟩, _⟩ := Relation.TransGen.head'_iff.mp circle
  have returns : grammar.modifierGraph.returnsTo modifier.name = true := by
    rw [NameGraph.returnsTo_iff, same]
    exact Relation.TransGen.mono (fun _ _ => steps_modifierGraph) _ _ circle
  have listed : Warning.includeCycle modifier.name ∈ grammar.includeCycles :=
    List.mem_map_of_mem (f := fun modifier : ModifierDecl => Warning.includeCycle modifier.name)
      (List.mem_filter.mpr ⟨member, returns⟩)
  unfold warnings
  simp only [List.mem_append]
  exact .inr (same ▸ listed)

end RulesAssist.Grammar
