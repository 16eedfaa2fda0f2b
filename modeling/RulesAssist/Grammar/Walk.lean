/-! Finding out whether a name leads back to itself. -/

set_option autoImplicit false

namespace RulesAssist

/-- Edges between names: the names that each listed name points to. -/
structure NameGraph where
  edges : List (String × List String)

namespace NameGraph

def targets (graph : NameGraph) (name : String) : List String :=
  (graph.edges.lookup name).getD []

def unseen (graph : NameGraph) (seen : List String) : List String :=
  (graph.edges.map (·.1)).filter (· ∉ seen)

theorem length_filter_lt {Item : Type} {wide narrow : Item → Bool} {items : List Item} {item : Item}
    (implied : ∀ other, narrow other = true → wide other = true) (member : item ∈ items)
    (kept : wide item = true) (dropped : narrow item = false) :
    (items.filter narrow).length < (items.filter wide).length := by
  induction items with
  | nil => cases member
  | cons head rest ih =>
    have shrinks : (rest.filter narrow).length ≤ (rest.filter wide).length := by
      rw [← List.countP_eq_length_filter, ← List.countP_eq_length_filter]
      exact List.countP_mono_left fun other _ => implied other
    rcases List.mem_cons.mp member with same | later
    · subst same
      simp only [List.filter_cons, kept, dropped, if_true, Bool.false_eq_true, if_false,
        List.length_cons]
      omega
    · have := ih later
      by_cases narrowHead : narrow head = true
      · simpa [List.filter_cons, narrowHead, implied head narrowHead] using this
      · by_cases wideHead : wide head = true
        · simp only [List.filter_cons, narrowHead, wideHead, Bool.false_eq_true, if_true, if_false,
            List.length_cons]
          omega
        · simpa [List.filter_cons, narrowHead, wideHead] using this

theorem mem_edges_of_targets {graph : NameGraph} {name : String} (some : graph.targets name ≠ []) :
    name ∈ graph.edges.map (·.1) := by
  unfold targets at some
  cases found : graph.edges.lookup name with
  | none => simp [found] at some
  | some targets =>
    obtain ⟨before, after, split, _⟩ := List.lookup_eq_some_iff.mp found
    simp [split]

theorem unseen_cons_lt {graph : NameGraph} {seen : List String} {name : String}
    (fresh : name ∉ seen) (some : graph.targets name ≠ []) :
    (graph.unseen (name :: seen)).length < (graph.unseen seen).length := by
  unfold unseen
  refine length_filter_lt ?_ (mem_edges_of_targets some) (by simpa using fresh) (by simp)
  intro other unlisted
  simp only [List.mem_cons, not_or, decide_eq_true_eq] at unlisted ⊢
  exact unlisted.2

theorem unseen_cons_le (graph : NameGraph) (seen : List String) (name : String) :
    (graph.unseen (name :: seen)).length ≤ (graph.unseen seen).length := by
  unfold unseen
  rw [← List.countP_eq_length_filter, ← List.countP_eq_length_filter]
  apply List.countP_mono_left
  intro other _ unlisted
  simp only [List.mem_cons, not_or, decide_eq_true_eq] at unlisted ⊢
  exact unlisted.2

/-- Search from a stack of names for a goal. A name is opened once; the goal itself is never opened. -/
def leadsTo (graph : NameGraph) (goal : String) (seen : List String) : List String → Bool
  | [] => false
  | name :: rest =>
    -- The goal ends the search when it is met, so that it need not be among the seen names.
    if name = goal then true
    else if name ∈ seen then graph.leadsTo goal seen rest
    else graph.leadsTo goal (name :: seen) (graph.targets name ++ rest)
termination_by stack => ((graph.unseen seen).length, stack.length)
decreasing_by
  · exact Prod.Lex.right _ (by simp)
  · rename_i fresh
    by_cases leaf : graph.targets name = []
    · have bound := graph.unseen_cons_le seen name
      rcases Nat.lt_or_eq_of_le bound with less | same
      · exact Prod.Lex.left _ _ less
      · rw [same]
        exact Prod.Lex.right _ (by simp [leaf])
    · exact Prod.Lex.left _ _ (unseen_cons_lt fresh leaf)

/-- Some walk of one or more edges leads from the name back to it. -/
def returnsTo (graph : NameGraph) (name : String) : Bool :=
  graph.leadsTo name [] (graph.targets name)

end NameGraph

end RulesAssist
