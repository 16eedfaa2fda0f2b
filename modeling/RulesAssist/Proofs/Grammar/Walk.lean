import Mathlib
import RulesAssist.Grammar.Walk

/-! A search finds a way back if and only if there is one.

What was opened is closed under steps, up to what is still on the stack. So when the stack is empty without
the goal having been met, nothing that was opened leads to it.
-/

set_option autoImplicit false

namespace RulesAssist.NameGraph

variable {graph : NameGraph} {goal : String}

def Steps (graph : NameGraph) (name target : String) : Prop :=
  target ∈ graph.targets name

theorem reaches_of_leadsTo {seen stack : List String} (found : graph.leadsTo goal seen stack = true) :
    ∃ name ∈ stack, Relation.ReflTransGen graph.Steps name goal := by
  fun_induction leadsTo graph goal seen stack with
  | case1 => cases found
  | case2 seen rest => exact ⟨goal, List.mem_cons_self .., .refl⟩
  | case3 seen name rest _ _ ih =>
    obtain ⟨start, member, leads⟩ := ih found
    exact ⟨start, List.mem_cons_of_mem _ member, leads⟩
  | case4 seen name rest _ _ ih =>
    obtain ⟨start, member, leads⟩ := ih found
    rcases List.mem_append.mp member with step | later
    · exact ⟨name, List.mem_cons_self .., .head step leads⟩
    · exact ⟨start, List.mem_cons_of_mem _ later, leads⟩

theorem mem_of_reaches {seen : List String}
    (closed : ∀ name ∈ seen, ∀ target, graph.Steps name target → target ∈ seen) {name last : String}
    (member : name ∈ seen) (leads : Relation.ReflTransGen graph.Steps name last) : last ∈ seen := by
  induction leads with
  | refl => exact member
  | tail _ step ih => exact closed _ ih _ step

theorem not_reaches_of_leadsTo {seen stack : List String}
    (closed : ∀ name ∈ seen, ∀ target, graph.Steps name target → target ∈ seen ∨ target ∈ stack)
    (apart : goal ∉ seen) (missed : graph.leadsTo goal seen stack = false) :
    ∀ name, name ∈ seen ∨ name ∈ stack → ¬ Relation.ReflTransGen graph.Steps name goal := by
  fun_induction leadsTo graph goal seen stack with
  | case1 seen =>
    rintro name (opened | none) leads
    · refine apart (mem_of_reaches ?_ opened leads)
      exact fun start member target step =>
        (closed start member target step).elim id fun none => (List.not_mem_nil none).elim
    · cases none
  | case2 => cases missed
  | case3 seen name rest _ opened ih =>
    have skipped : ∀ other, other ∈ name :: rest → other ∈ seen ∨ other ∈ rest := by
      intro other member
      rcases List.mem_cons.mp member with rfl | later
      · exact .inl opened
      · exact .inr later
    intro start known
    apply ih _ apart missed
    · exact known.elim .inl (skipped start)
    · intro source member target step
      exact (closed source member target step).elim .inl (skipped target)
  | case4 seen name rest different _ ih =>
    -- The name is done, and all that it leads to in one step waits on the stack.
    have moved : ∀ other, other ∈ name :: rest →
        other ∈ name :: seen ∨ other ∈ graph.targets name ++ rest := by
      intro other member
      rcases List.mem_cons.mp member with rfl | later
      · exact .inl (List.mem_cons_self ..)
      · exact .inr (List.mem_append_right _ later)
    intro start known
    apply ih _ _ missed
    · exact known.elim (fun before => .inl (List.mem_cons_of_mem _ before)) (moved start)
    · intro source member target step
      rcases List.mem_cons.mp member with rfl | before
      · exact .inr (List.mem_append_left _ step)
      · exact (closed source before target step).elim
          (fun earlier => .inl (List.mem_cons_of_mem _ earlier)) (moved target)
    · intro member
      exact (List.mem_cons.mp member).elim (fun same => different same.symm) apart

/-- The search tells whether one or more steps lead from a name back to it. -/
theorem returnsTo_iff (graph : NameGraph) (name : String) :
    graph.returnsTo name = true ↔ Relation.TransGen graph.Steps name name := by
  rw [Relation.TransGen.head'_iff]
  constructor
  · intro found
    obtain ⟨next, step, leads⟩ := reaches_of_leadsTo found
    exact ⟨next, step, leads⟩
  · rintro ⟨next, step, leads⟩
    by_contra missed
    have fails : graph.leadsTo name [] (graph.targets name) = false := Bool.not_eq_true _ ▸ missed
    refine not_reaches_of_leadsTo ?_ List.not_mem_nil fails next (.inr step) leads
    exact nofun

end RulesAssist.NameGraph
