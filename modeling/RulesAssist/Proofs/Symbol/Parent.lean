import RulesAssist.Proofs.Symbol.Tidy

/-! A dotted name and the field that it names.

A dotted name is a path and a key: the type at the path has a field of the key, and this field is the type of
the name. A path without a dot is a root; but its name stands for the type that was registered last under it,
which may be a field of the same name.
-/

set_option autoImplicit false

namespace RulesAssist

namespace SymbolTable

variable {grammar : Grammar}

/-- What is registered after a root: all that its fields lead to, and then the later roots. -/
def registeredAfter (root : String) : List (String × TypeSymbol) → List (String × TypeSymbol)
  | [] => []
  | (name, symbol) :: rest =>
    if name = root then
      TypeSymbol.fieldRegistrations name (symbol.fields.getD []) ++ registrationsOf rest
    else registeredAfter root rest

theorem registrations_eq (symbol : TypeSymbol) (name path : String) :
    symbol.registrations name path = (name, symbol) :: (path, symbol) ::
      TypeSymbol.fieldRegistrations path (symbol.fields.getD []) := by
  obtain ⟨identity, about, methods, fields, basic⟩ := symbol
  cases fields <;> rfl

/-- The name of a root stands for the root, unless it is given to another type afterwards. -/
theorem last?_root {roots : List (String × TypeSymbol)} {root : String} {symbol : TypeSymbol}
    (found : roots.lookup root = some symbol) : Keyed.last? (registrationsOf roots) root =
      some ((Keyed.last? (registeredAfter root roots) root).getD symbol) := by
  induction roots with
  | nil => cases found
  | cons entry rest ih =>
    obtain ⟨name, first⟩ := entry
    have split : registrationsOf ((name, first) :: rest) =
        first.registrations name name ++ registrationsOf rest := rfl
    rw [Keyed.lookup_cons] at found
    by_cases same : root = name
    · -- Both names of the root are the same, so what counts is what its fields and later roots add.
      subst same
      rw [if_pos rfl, Option.some.injEq] at found
      subst found
      rw [split, registrations_eq, registeredAfter, if_pos rfl, List.cons_append, List.cons_append,
        Keyed.last?_cons, Keyed.last?_cons, if_pos (beq_self_eq_true root)]
      cases Keyed.last? (TypeSymbol.fieldRegistrations root (first.fields.getD []) ++
        registrationsOf rest) root <;> rfl
    · rw [if_neg same] at found
      rw [split, Keyed.last?_append, ih found, registeredAfter, if_neg (Ne.symm same)]
      rfl

/-- A name with a dot is the type that its last key names in the type of its path. For a path without a dot
this is the root of that name, which its name need not find: a field of the same name that is registered
later hides it, and the field is then found if and only if the hiding type has it too. -/
theorem dotted_name_finds_field (distinct : grammar.Distinct) (undotted : grammar.Undotted)
    {path key : String} {child : TypeSymbol} (plain : Plain key)
    (found : (compile grammar).type? (dotted path key) = some child) :
    ∃ parent, parent.field? key = some child ∧
      (¬ Plain path → (compile grammar).type? path = some parent) ∧
      (Plain path → (Workshop.run grammar).1.lookup path = some parent ∧
        (compile grammar).type? path = some ((Keyed.last?
          (registeredAfter path (Workshop.run grammar).1) path).getD parent) ∧
        (((compile grammar).type? path).bind (·.field? key) = some child ↔
          ∀ last, Keyed.last? (registeredAfter path (Workshop.run grammar).1) path = some last →
            last.field? key = some child)) := by
  obtain ⟨root, keys, rooted, simple, rfl⟩ := exists_pathOf path
  -- The whole name is a path too, and the parent is met one key before its end.
  have clean : ∀ inner ∈ keys ++ [key], Plain inner := by
    intro inner member
    rcases List.mem_append.mp member with before | last
    · exact simple inner before
    · exact List.mem_singleton.mp last ▸ plain
  rw [← pathOf_concat, type?_of_keys distinct undotted rooted clean (by simp)] at found
  obtain ⟨top, listed, reached⟩ := Option.bind_eq_some_iff.mp found
  rw [TypeSymbol.reach?_append] at reached
  obtain ⟨parent, leads, inner⟩ := Option.bind_eq_some_iff.mp reached
  have owned : parent.field? key = some child := by
    rw [← inner, TypeSymbol.reach?]
    exact (Option.bind_fun_some _).symm
  refine ⟨parent, owned, ?_, ?_⟩
  · intro dots
    have nonempty : keys ≠ [] := by
      rintro rfl
      exact dots rooted
    rw [type?_of_keys distinct undotted rooted simple nonempty, listed, Option.bind_some, leads]
  · intro undots
    cases keys with
    | cons first rest => exact absurd undots (not_plain_pathOf root (List.cons_ne_nil first rest))
    | nil =>
      cases leads
      have named : (compile grammar).type? root = some ((Keyed.last?
          (registeredAfter root (Workshop.run grammar).1) root).getD top) := by
        rw [type?_compile]
        exact last?_root listed
      refine ⟨listed, named, ?_⟩
      rw [show pathOf root [] = root from rfl, named, Option.bind_some]
      cases Keyed.last? (registeredAfter root (Workshop.run grammar).1) root with
      | none => simp [owned]
      | some last => simp

/-- A root, and a later field of the same name. Its basic type leads back to itself. -/
def clashing : Grammar where
  accessModifiers := []
  basicTypes := [("node", ⟨"N", none, some [("next", ⟨"again", none, none, some "node"⟩)], none⟩)]
  types :=
    [("a", ⟨"A", none, some [("b", ⟨"B", none, none, none⟩)], none⟩),
      ("x", ⟨"X", none, some [("a", ⟨"hides", none, none, some "node"⟩)], none⟩)]

theorem clashing_distinct : clashing.Distinct where
  basicTypes := by decide
  types := by decide
  basicFields := by simp [clashing, TypeDecl.Throughout, fieldsThroughout, Keyed.keys]
  fields := by simp [clashing, TypeDecl.Throughout, fieldsThroughout, Keyed.keys]

theorem clashing_undotted : clashing.Undotted where
  basicTypes := by simp [clashing, Plain]
  types := by simp [clashing, Plain]
  basicFields := by simp [clashing, TypeDecl.Throughout, fieldsThroughout, Plain]
  fields := by simp [clashing, TypeDecl.Throughout, fieldsThroughout, Plain]

theorem dotted_name_finds_field_clashing :
    clashing.Distinct ∧ clashing.Undotted ∧ Plain "next" ∧ Plain "b" ∧ ¬ Plain "x.a" ∧ Plain "a" ∧
      (∃ child parent, (compile clashing).type? (dotted "x.a" "next") = some child ∧
        (compile clashing).type? "x.a" = some parent ∧ parent.field? "next" = some child) ∧
      ∃ child root, (compile clashing).type? (dotted "a" "b") = some child ∧
        (Workshop.run clashing).1.lookup "a" = some root ∧ root.field? "b" = some child := by
  have first : ((compile clashing).type? (dotted "x.a" "next")).isSome := by
    rw [type?_compile]
    cbv
  have second : ((compile clashing).type? (dotted "a" "b")).isSome := by
    rw [type?_compile]
    cbv
  obtain ⟨child, found⟩ := Option.isSome_iff_exists.mp first
  obtain ⟨inner, had⟩ := Option.isSome_iff_exists.mp second
  have plain : Plain "next" ∧ Plain "b" ∧ ¬ Plain "x.a" ∧ Plain "a" := by simp [Plain]
  obtain ⟨parent, field, nested, _⟩ :=
    dotted_name_finds_field clashing_distinct clashing_undotted plain.1 found
  obtain ⟨root, own, _, bare⟩ :=
    dotted_name_finds_field clashing_distinct clashing_undotted plain.2.1 had
  exact ⟨clashing_distinct, clashing_undotted, plain.1, plain.2.1, plain.2.2.1, plain.2.2.2,
    ⟨child, parent, found, nested plain.2.2.1, field⟩,
    ⟨inner, root, had, (bare plain.2.2.2).1, own⟩⟩

/-- The name of the first root stands for the field of the other one, which lacks what the root has. -/
theorem root_hidden_by_field :
    clashing.Distinct ∧ clashing.Undotted ∧ Plain "b" ∧
      ∃ child, (compile clashing).type? (dotted "a" "b") = some child ∧
        ¬ ∃ parent, (compile clashing).type? "a" = some parent ∧ parent.field? "b" = some child := by
  have registered : ((compile clashing).type? (dotted "a" "b")).isSome := by
    rw [type?_compile]
    cbv
  have lacking : ((compile clashing).type? "a").map (fun symbol => (symbol.field? "b").isNone) =
      some true := by
    rw [type?_compile]
    cbv
  obtain ⟨child, found⟩ := Option.isSome_iff_exists.mp registered
  refine ⟨clashing_distinct, clashing_undotted, by simp [Plain], child, found, ?_⟩
  rintro ⟨parent, named, field⟩
  rw [named, Option.map_some, field] at lacking
  cases lacking

end SymbolTable

end RulesAssist
