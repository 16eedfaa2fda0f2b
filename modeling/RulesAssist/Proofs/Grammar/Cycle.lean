import RulesAssist.Proofs.Grammar.Warning

/-! Names that lead back to themselves are reported, and no others.

A basic type leads to every basic type that is named somewhere in its tree, and the name of a modifier to
every known name that a modifier of that name includes. The search for a way back ends whatever the graph is
and in whichever order it takes the names that wait: a turn takes a name off, and what a name brings along
comes only once.
-/

set_option autoImplicit false

namespace RulesAssist

namespace NameGraph

/-- How far a search is: the names that were opened, and those that wait. -/
structure Search where
  seen : List String
  waiting : List String

variable {graph : NameGraph} {goal : String} {search later last : Search}

/-- One of the waiting names is taken, unless it is the goal. If it is new, it is opened and its targets
wait. -/
inductive Turn (graph : NameGraph) (goal : String) : Search → Search → Prop where
  | skipped {seen waiting rest : List String} {name : String} : waiting.Perm (name :: rest) →
      name ≠ goal → name ∈ seen → Turn graph goal ⟨seen, waiting⟩ ⟨seen, rest⟩
  | opened {seen waiting rest next : List String} {name : String} : waiting.Perm (name :: rest) →
      name ≠ goal → name ∉ seen → next.Perm (graph.targets name ++ rest) →
      Turn graph goal ⟨seen, waiting⟩ ⟨name :: seen, next⟩

inductive Turns (graph : NameGraph) (goal : String) : Nat → Search → Search → Prop where
  | done {search : Search} : Turns graph goal 0 search search
  | next {turns : Nat} {search later last : Search} : graph.Turn goal search later →
      Turns graph goal turns later last → Turns graph goal (turns + 1) search last

inductive Search.Answers (goal : String) : Search → Bool → Prop where
  | found {search : Search} : goal ∈ search.waiting → Answers goal search true
  | exhausted {seen : List String} : Answers goal ⟨seen, []⟩ false

/-- What is left to be taken at most: the names that wait, and the targets of those that can be opened. -/
def work (graph : NameGraph) (search : Search) : Nat :=
  search.waiting.length +
    ((graph.unseen search.seen).map fun name => (graph.targets name).length).sum

theorem filter_not_mem_cons (names seen : List String) (name : String) :
    (names.filter (· ∉ name :: seen)).Sublist (names.filter (· ∉ seen)) := by
  refine List.monotone_filter_right names fun other unlisted => ?_
  rw [decide_eq_true_eq] at unlisted ⊢
  exact fun opened => unlisted (List.mem_cons_of_mem _ opened)

theorem sum_filter_not_mem {weight : String → Nat} {names seen : List String} {name : String}
    (member : name ∈ names) (fresh : name ∉ seen) :
    ((names.filter (· ∉ name :: seen)).map weight).sum + weight name ≤
      ((names.filter (· ∉ seen)).map weight).sum := by
  induction names with
  | nil => cases member
  | cons head rest ih =>
    by_cases same : head = name
    · subst same
      have less := ((filter_not_mem_cons rest seen head).map weight).sum_le_sum
        fun _ _ => Nat.zero_le _
      rw [List.filter_cons_of_neg (by simp), List.filter_cons_of_pos (by simpa using fresh),
        List.map_cons, List.sum_cons]
      omega
    · have later := ih ((List.mem_cons.mp member).resolve_left (Ne.symm same))
      by_cases opened : head ∈ seen
      · rwa [List.filter_cons_of_neg (by simp [opened]), List.filter_cons_of_neg (by simp [opened])]
      · rw [List.filter_cons_of_pos (by simp [same, opened]),
          List.filter_cons_of_pos (by simp [opened]), List.map_cons, List.sum_cons, List.map_cons,
          List.sum_cons]
        omega

theorem sum_unseen_cons {seen : List String} {name : String} (fresh : name ∉ seen) :
    ((graph.unseen (name :: seen)).map fun name => (graph.targets name).length).sum +
        (graph.targets name).length ≤
      ((graph.unseen seen).map fun name => (graph.targets name).length).sum := by
  by_cases leaf : graph.targets name = []
  · rw [leaf]
    exact ((filter_not_mem_cons _ seen name).map _).sum_le_sum fun _ _ => Nat.zero_le _
  · exact sum_filter_not_mem (mem_edges_of_targets leaf) fresh

theorem Turn.work_lt (turn : graph.Turn goal search later) : graph.work later < graph.work search := by
  cases turn with
  | skipped taken _ _ =>
    simp only [work, taken.length_eq, List.length_cons]
    omega
  | opened taken _ fresh grown =>
    have fewer := @sum_unseen_cons graph _ _ fresh
    simp only [work, taken.length_eq, grown.length_eq, List.length_cons, List.length_append]
    omega

theorem Turns.le_work {turns : Nat} (run : graph.Turns goal turns search last) :
    turns + graph.work last ≤ graph.work search := by
  induction run with
  | done => omega
  | next turn _ ih =>
    have less := turn.work_lt
    omega

theorem exists_turns_leadsTo (graph : NameGraph) (goal : String) (seen waiting : List String) :
    ∃ turns stop, graph.Turns goal turns ⟨seen, waiting⟩ stop ∧
      stop.Answers goal (graph.leadsTo goal seen waiting) := by
  fun_induction leadsTo graph goal seen waiting with
  | case1 seen => exact ⟨0, _, .done, .exhausted⟩
  | case2 seen rest => exact ⟨0, _, .done, .found (List.mem_cons_self ..)⟩
  | case3 seen name rest different opened ih =>
    obtain ⟨turns, stop, run, answers⟩ := ih
    exact ⟨turns + 1, stop, .next (.skipped (.refl _) different opened) run, answers⟩
  | case4 seen name rest different fresh ih =>
    obtain ⟨turns, stop, run, answers⟩ := ih
    exact ⟨turns + 1, stop, .next (.opened (.refl _) different fresh (.refl _)) run, answers⟩

/-- What holds all along a search: what was opened or waits can be reached, and the goal and what was opened
lead only to that. The goal itself is never opened. -/
structure Explores (graph : NameGraph) (goal : String) (search : Search) : Prop where
  reached : ∀ name, name ∈ search.seen ∨ name ∈ search.waiting → Relation.TransGen graph.Steps goal name
  unopened : goal ∉ search.seen
  closed : ∀ name, name = goal ∨ name ∈ search.seen → ∀ target, graph.Steps name target →
    target ∈ search.seen ∨ target ∈ search.waiting

theorem explores_start (graph : NameGraph) (goal : String) :
    graph.Explores goal ⟨[], graph.targets goal⟩ where
  reached := fun _ known => known.elim nofun fun step => .single step
  unopened := List.not_mem_nil
  closed := by
    rintro name (rfl | none) target step
    · exact .inr step
    · cases none

theorem Explores.turn (explores : graph.Explores goal search) (turn : graph.Turn goal search later) :
    graph.Explores goal later := by
  obtain ⟨reached, unopened, closed⟩ := explores
  cases turn with
  | skipped taken different opened =>
    refine ⟨?_, unopened, ?_⟩
    · exact fun other known => reached other (known.imp_right fun later =>
        taken.mem_iff.mpr (List.mem_cons_of_mem _ later))
    · intro source known target step
      refine (closed source known target step).elim .inl fun waits => ?_
      rcases List.mem_cons.mp (taken.mem_iff.mp waits) with rfl | later
      · exact .inl opened
      · exact .inr later
  | @opened seen waiting rest next name taken different fresh grown =>
    have here : Relation.TransGen graph.Steps goal name :=
      reached name (.inr (taken.mem_iff.mpr (List.mem_cons_self ..)))
    -- The name is done, and its targets wait.
    have moved : ∀ other, other ∈ seen ∨ other ∈ waiting → other ∈ name :: seen ∨ other ∈ next := by
      rintro other (before | waits)
      · exact .inl (List.mem_cons_of_mem _ before)
      rcases List.mem_cons.mp (taken.mem_iff.mp waits) with rfl | later
      · exact .inl (List.mem_cons_self ..)
      · exact .inr (grown.mem_iff.mpr (List.mem_append_right _ later))
    refine ⟨?_, ?_, ?_⟩
    · rintro other (known | waits)
      · rcases List.mem_cons.mp known with rfl | before
        · exact here
        · exact reached other (.inl before)
      rcases List.mem_append.mp (grown.mem_iff.mp waits) with step | later
      · exact .tail here step
      · exact reached other (.inr (taken.mem_iff.mpr (List.mem_cons_of_mem _ later)))
    · exact fun member => (List.mem_cons.mp member).elim (fun same => different same.symm) unopened
    · rintro source known target step
      by_cases same : source = name
      · subst same
        exact .inr (grown.mem_iff.mpr (List.mem_append_left _ step))
      · exact moved target (closed source
          (known.imp_right fun member => (List.mem_cons.mp member).resolve_left same) target step)

theorem Explores.turns {turns : Nat} (explores : graph.Explores goal search)
    (run : graph.Turns goal turns search last) : graph.Explores goal last := by
  induction run with
  | done => exact explores
  | next turn _ ih => exact ih (explores.turn turn)

/-- In whichever order the names are taken, the answer is the same. -/
theorem Explores.answer (explores : graph.Explores goal search) {answer : Bool}
    (answers : search.Answers goal answer) : answer = graph.returnsTo goal := by
  obtain ⟨reached, unopened, closed⟩ := explores
  cases answers with
  | found waits => exact ((graph.returnsTo_iff goal).mpr (reached goal (.inr waits))).symm
  | @exhausted seen =>
    refine (Bool.eq_false_iff.mpr fun returns => unopened ?_).symm
    -- Nothing waits, so all that the goal leads to was opened.
    have opened : ∀ name, Relation.TransGen graph.Steps goal name → name ∈ seen := by
      intro name leads
      induction leads with
      | single step => exact (closed goal (.inl rfl) _ step).resolve_right List.not_mem_nil
      | tail _ step ih => exact (closed _ (.inr ih) _ step).resolve_right List.not_mem_nil
    exact opened goal ((graph.returnsTo_iff goal).mp returns)

end NameGraph

inductive TypeDecl.Within (inner : TypeDecl) : TypeDecl → Prop where
  | whole : Within inner inner
  | field {decl field : TypeDecl} {fields : List (String × TypeDecl)} {key : String} :
      decl.fields = some fields → (key, field) ∈ fields → Within inner field → Within inner decl

mutual

theorem TypeDecl.mem_references_iff {target : String} : ∀ decl : TypeDecl,
    target ∈ decl.references ↔ ∃ inner : TypeDecl, inner.Within decl ∧ inner.basicTypeRef = some target
  | ⟨about, methods, none, basic⟩ => by
    rw [TypeDecl.references, Option.mem_toList]
    constructor
    · exact fun named => ⟨_, .whole, named⟩
    · rintro ⟨inner, within, named⟩
      cases within with
      | whole => exact named
      | field owned _ _ => cases owned
  | ⟨about, methods, some fields, basic⟩ => by
    rw [TypeDecl.references, List.mem_append, Option.mem_toList, mem_fieldReferences_iff fields]
    constructor
    · rintro (named | ⟨key, field, inner, member, within, named⟩)
      · exact ⟨_, .whole, named⟩
      · exact ⟨inner, .field rfl member within, named⟩
    · rintro ⟨inner, within, named⟩
      cases within with
      | whole => exact .inl named
      | @field _ field _ key owned member below =>
        cases owned
        exact .inr ⟨key, field, inner, member, below, named⟩

theorem mem_fieldReferences_iff {target : String} : ∀ fields : List (String × TypeDecl),
    target ∈ fieldReferences fields ↔ ∃ (key : String) (field inner : TypeDecl),
      (key, field) ∈ fields ∧ inner.Within field ∧ inner.basicTypeRef = some target
  | [] => by simp [fieldReferences]
  | (key, field) :: rest => by
    rw [fieldReferences, List.mem_append, TypeDecl.mem_references_iff field,
      mem_fieldReferences_iff rest]
    constructor
    · rintro (⟨inner, within, named⟩ | ⟨other, decl, inner, member, within, named⟩)
      · exact ⟨key, field, inner, List.mem_cons_self .., within, named⟩
      · exact ⟨other, decl, inner, List.mem_cons_of_mem _ member, within, named⟩
    · rintro ⟨other, decl, inner, member, within, named⟩
      rcases List.mem_cons.mp member with same | later
      · cases same
        exact .inl ⟨inner, within, named⟩
      · exact .inr ⟨other, decl, inner, later, within, named⟩

end

namespace Grammar

variable {grammar : Grammar}

/-- A basic type has the second name somewhere in its tree, whether or not some basic type bears it. -/
def Uses (grammar : Grammar) (name target : String) : Prop :=
  ∃ decl inner : TypeDecl, grammar.basicTypes.lookup name = some decl ∧ inner.Within decl ∧
    inner.basicTypeRef = some target

theorem uses_eq_refers : grammar.Uses = grammar.Refers := by
  funext name target
  apply propext
  constructor
  · rintro ⟨decl, inner, found, within, named⟩
    exact ⟨decl, found, decl.mem_references_iff.mpr ⟨inner, within, named⟩⟩
  · rintro ⟨decl, found, referred⟩
    obtain ⟨inner, within, named⟩ := decl.mem_references_iff.mp referred
    exact ⟨decl, inner, found, within, named⟩

theorem includes_of_steps {name target : String} (step : grammar.modifierGraph.Steps name target) :
    grammar.Includes name target := by
  have opened : name ∈ grammar.modifierGraph.edges.map (·.1) :=
    NameGraph.mem_edges_of_targets (List.ne_nil_of_mem step)
  obtain ⟨edge, listed, rfl⟩ := List.mem_map.mp opened
  obtain ⟨modifier, member, rfl⟩ := List.mem_map.mp listed
  have included : target ∈ grammar.includedBy modifier.name := targets_modifierGraph member ▸ step
  obtain ⟨bearer, borne, named⟩ := List.mem_flatMap.mp included
  obtain ⟨known, same⟩ := List.mem_filter.mp borne
  obtain ⟨given, exists'⟩ := List.mem_filter.mp named
  exact ⟨bearer, known, beq_iff_eq.mp same, given, exists'⟩

theorem steps_eq_includes : grammar.modifierGraph.Steps = grammar.Includes := by
  funext name target
  exact propext ⟨includes_of_steps, steps_modifierGraph⟩

theorem ne_cycle_of_mem_ownWarnings {path : String} {methods : Option (List (String × MethodDecl))}
    {basic : Option String} {warning : Warning}
    (member : warning ∈ grammar.ownWarnings path methods basic) (name : String) :
    warning ≠ .basicTypeCycle name ∧ warning ≠ .includeCycle name := by
  unfold ownWarnings at member
  split at member
  · cases member
  · split at member
    · cases List.mem_singleton.mp member
      exact ⟨nofun, nofun⟩
    · split at member
      · cases List.mem_singleton.mp member
        exact ⟨nofun, nofun⟩
      · cases member

mutual

theorem ne_cycle_of_mem_typeWarnings {warning : Warning} : ∀ (decl : TypeDecl) (path : String),
    warning ∈ grammar.typeWarnings path decl →
    ∀ name, warning ≠ .basicTypeCycle name ∧ warning ≠ .includeCycle name
  | ⟨_, _, none, _⟩, _, member => ne_cycle_of_mem_ownWarnings member
  | ⟨_, _, some fields, _⟩, path, member =>
    (List.mem_append.mp member).elim ne_cycle_of_mem_ownWarnings
      (ne_cycle_of_mem_fieldWarnings fields path)

theorem ne_cycle_of_mem_fieldWarnings {warning : Warning} : ∀ (fields : List (String × TypeDecl))
    (path : String), warning ∈ grammar.fieldWarnings path fields →
    ∀ name, warning ≠ .basicTypeCycle name ∧ warning ≠ .includeCycle name
  | [], _, member => nomatch member
  | (key, field) :: rest, path, member =>
    (List.mem_append.mp member).elim (ne_cycle_of_mem_typeWarnings field (dotted path key))
      (ne_cycle_of_mem_fieldWarnings rest path)

end

theorem mem_cycles_of_mem {name : String} {warning : Warning}
    (cycle : warning = .basicTypeCycle name ∨ warning = .includeCycle name)
    (member : warning ∈ grammar.warnings) :
    warning ∈ grammar.basicTypeCycles ∨ warning ∈ grammar.includeCycles := by
  have apart : ∀ (path : String) (decl : TypeDecl), warning ∉ grammar.typeWarnings path decl :=
    fun path decl about =>
      have ⟨one, other⟩ := ne_cycle_of_mem_typeWarnings decl path about name
      cycle.elim one other
  unfold warnings at member
  simp only [List.mem_append, List.mem_flatMap] at member
  obtain (((⟨entry, _, about⟩ | ⟨entry, _, about⟩) | basic) | ⟨modifier, _, unknown⟩) | include' :=
    member
  · exact absurd about (apart _ _)
  · exact absurd about (apart _ _)
  · exact .inl basic
  · obtain ⟨_, _, rfl⟩ := List.mem_map.mp unknown
    exact cycle.elim nofun nofun
  · exact .inr include'

theorem basicTypeCycle_mem_iff {name : String} :
    .basicTypeCycle name ∈ grammar.warnings ↔ Relation.TransGen grammar.Uses name name := by
  rw [uses_eq_refers]
  refine ⟨fun member => ?_, basicTypeCycle_mem⟩
  obtain listed | listed := mem_cycles_of_mem (.inl rfl) member
  · obtain ⟨entry, kept, same⟩ := List.mem_map.mp listed
    cases same
    have returns := (List.mem_filter.mp kept).2
    rwa [NameGraph.returnsTo_iff, steps_basicTypeGraph] at returns
  · obtain ⟨_, _, same⟩ := List.mem_map.mp listed
    cases same

theorem includeCycle_mem_iff {name : String} :
    .includeCycle name ∈ grammar.warnings ↔ Relation.TransGen grammar.Includes name name := by
  refine ⟨fun member => ?_, includeCycle_mem⟩
  obtain listed | listed := mem_cycles_of_mem (.inr rfl) member
  · obtain ⟨_, _, same⟩ := List.mem_map.mp listed
    cases same
  · obtain ⟨modifier, kept, same⟩ := List.mem_map.mp listed
    cases same
    have returns := (List.mem_filter.mp kept).2
    rwa [NameGraph.returnsTo_iff, steps_eq_includes] at returns

/-- A name is reported exactly if a walk of one or more steps leads from it back to it. On every graph the
search for such a walk ends, in whichever order it takes the names that wait, and with the same answer. -/
theorem cycles_reported_exactly (grammar : Grammar) :
    (∀ name, .basicTypeCycle name ∈ grammar.warnings ↔
      (grammar.basicTypes.lookup name).isSome ∧ Relation.TransGen grammar.Uses name name) ∧
    (∀ name, .includeCycle name ∈ grammar.warnings ↔
      grammar.hasModifier name ∧ Relation.TransGen grammar.Includes name name) ∧
    ∀ (graph : NameGraph) (goal : String) (turns : Nat) (search : NameGraph.Search),
      graph.Turns goal turns ⟨[], graph.targets goal⟩ search →
      turns ≤ graph.work ⟨[], graph.targets goal⟩ ∧
        (∀ answer, search.Answers goal answer → answer = graph.returnsTo goal) ∧
        ∃ more stop, graph.Turns goal more search stop ∧ stop.Answers goal (graph.returnsTo goal) := by
  refine ⟨fun name => ?_, fun name => ?_, fun graph goal turns search run => ?_⟩
  · rw [basicTypeCycle_mem_iff, iff_and_self]
    intro circle
    obtain ⟨_, ⟨decl, _, found, _⟩, _⟩ := Relation.TransGen.head'_iff.mp circle
    exact found ▸ rfl
  · rw [includeCycle_mem_iff, iff_and_self]
    intro circle
    obtain ⟨_, ⟨modifier, member, same, _⟩, _⟩ := Relation.TransGen.head'_iff.mp circle
    exact List.any_eq_true.mpr ⟨modifier, member, beq_iff_eq.mpr same⟩
  · have explores := (graph.explores_start goal).turns run
    have bound := run.le_work
    obtain ⟨more, stop, onward, answers⟩ :=
      graph.exists_turns_leadsTo goal search.seen search.waiting
    have same := (explores.turns onward).answer answers
    exact ⟨by omega, fun answer => explores.answer, more, stop, onward, same ▸ answers⟩

end Grammar

end RulesAssist
