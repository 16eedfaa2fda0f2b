import RulesAssist.Proofs.Grammar.Path
import RulesAssist.Symbol.Table

/-! Which type a registered name stands for.

A type is registered with all that its fields lead to, each under its key and under its path. Only what
lies below a path is registered under a name that continues it, so a path finds what its keys lead to.
A name without a dot finds whichever type of that name came last.
-/

set_option autoImplicit false

namespace RulesAssist

def TypeSymbol.reach? : List String → TypeSymbol → Option TypeSymbol
  | [], symbol => some symbol
  | key :: keys, symbol => (symbol.field? key).bind (reach? keys)

theorem TypeSymbol.reach?_append (symbol : TypeSymbol) (keys others : List String) :
    symbol.reach? (keys ++ others) = (symbol.reach? keys).bind (reach? others) := by
  induction keys generalizing symbol with
  | nil => rfl
  | cons key rest ih =>
    rw [List.cons_append, reach?, reach?]
    cases symbol.field? key with
    | none => rfl
    | some field => exact ih field

mutual

/-- Distinct keys without dots, in every type that the fields lead to. -/
def TypeSymbol.Tidy : TypeSymbol → Prop
  | ⟨_, _, _, none, _⟩ => True
  | ⟨_, _, _, some fields, _⟩ =>
    (Keyed.keys fields).Nodup ∧ (∀ key ∈ Keyed.keys fields, Plain key) ∧ fieldsTidy fields

def fieldsTidy : List (String × TypeSymbol) → Prop
  | [] => True
  | (_, field) :: rest => field.Tidy ∧ fieldsTidy rest

end

namespace SymbolTable

theorem getElem?_register (registrations : List (String × TypeSymbol)) (name : String) :
    (register registrations)[name]? = Keyed.last? registrations name := by
  have folded : ∀ types : Std.HashMap String TypeSymbol,
      (registrations.foldl (fun types entry => types.insert entry.1 entry.2) types)[name]? =
        (Keyed.last? registrations name).or types[name]? := by
    induction registrations with
    | nil => exact fun _ => rfl
    | cons entry rest ih =>
      intro types
      rw [List.foldl_cons, ih, Keyed.last?_cons, Option.or_assoc, Std.HashMap.getElem?_insert]
      congr 1
      by_cases same : entry.1 = name
      · rw [if_pos (beq_iff_eq.mpr same), if_pos (beq_iff_eq.mpr same.symm), Option.some_or]
      · rw [if_neg (fun equal => same (beq_iff_eq.mp equal)),
          if_neg (fun equal => same (beq_iff_eq.mp equal).symm), Option.none_or]
  unfold register
  rw [folded, Std.HashMap.getElem?_empty, Option.or_none]

theorem type?_compile (grammar : Grammar) (name : String) :
    (compile grammar).type? name = Keyed.last? (registrationsOf (Workshop.run grammar).1) name :=
  getElem?_register _ name

end SymbolTable

namespace TypeSymbol

mutual

theorem named_registrations : ∀ (symbol : TypeSymbol) (name path : String), symbol.Tidy → Plain name →
    ∀ entry ∈ symbol.registrations name path, Plain entry.1 ∨
      ∃ keys, (∀ key ∈ keys, Plain key) ∧ entry.1 = pathOf path keys
  | ⟨_, _, _, none, _⟩, name, path, _, plain => by
    intro entry member
    rcases List.mem_cons.mp member with rfl | later
    · exact .inl plain
    · cases List.mem_singleton.mp later
      exact .inr ⟨[], nofun, rfl⟩
  | ⟨_, _, _, some fields, _⟩, name, path, tidy, plain => by
    intro entry member
    rcases List.mem_cons.mp member with rfl | later
    · exact .inl plain
    · rcases List.mem_cons.mp later with rfl | below
      · exact .inr ⟨[], nofun, rfl⟩
      · obtain simple | ⟨key, keys, apart, continues⟩ :=
          named_fieldRegistrations fields path tidy.2.2 tidy.2.1 entry below
        · exact .inl simple
        · exact .inr ⟨key :: keys, apart, continues⟩

theorem named_fieldRegistrations : ∀ (fields : List (String × TypeSymbol)) (path : String),
    fieldsTidy fields → (∀ key ∈ Keyed.keys fields, Plain key) →
    ∀ entry ∈ fieldRegistrations path fields, Plain entry.1 ∨
      ∃ key keys, (∀ inner ∈ key :: keys, Plain inner) ∧ entry.1 = pathOf path (key :: keys)
  | [], _, _, _ => nofun
  | (key, field) :: rest, path, tidy, plain => by
    intro entry member
    have first : Plain key := plain key (List.mem_cons_self ..)
    rcases List.mem_append.mp member with here | later
    · obtain simple | ⟨keys, apart, continues⟩ :=
        named_registrations field key (dotted path key) tidy.1 first entry here
      · exact .inl simple
      · exact .inr ⟨key, keys, List.forall_mem_cons.mpr ⟨first, apart⟩, continues⟩
    · exact named_fieldRegistrations rest path tidy.2
        (fun other known => plain other (List.mem_cons_of_mem _ known)) entry later

end

variable {fields : List (String × TypeSymbol)} {path key : String} {keys : List String}

theorem last?_registrations_of_ne {field : TypeSymbol} {other : String} (tidy : field.Tidy)
    (plain : Plain other) (simple : ∀ inner ∈ key :: keys, Plain inner) (apart : key ≠ other) :
    Keyed.last? (field.registrations other (dotted path other)) (pathOf path (key :: keys)) = none := by
  refine Keyed.last?_eq_none ?_
  intro entry member same
  obtain undotted | ⟨those, clean, continues⟩ :=
    named_registrations field other (dotted path other) tidy plain entry member
  · rw [same] at undotted
    exact not_plain_pathOf path (List.cons_ne_nil key keys) undotted
  · rw [same, ← pathOf_cons] at continues
    have equal := pathOf_inj_keys simple (List.forall_mem_cons.mpr ⟨plain, clean⟩) continues
    exact apart (List.cons.inj equal).1

theorem last?_fieldRegistrations_self (tidy : fieldsTidy fields)
    (plain : ∀ key ∈ Keyed.keys fields, Plain key) (dots : ¬ Plain path) :
    Keyed.last? (fieldRegistrations path fields) path = none := by
  refine Keyed.last?_eq_none ?_
  intro entry member same
  obtain undotted | ⟨key, keys, clean, continues⟩ :=
    named_fieldRegistrations fields path tidy plain entry member
  · exact dots (same ▸ undotted)
  · exact pathOf_cons_ne path clean (continues.symm.trans same)

theorem last?_both {name : String} {wanted : String} (plain : Plain name) (dots : ¬ Plain wanted)
    (symbol : TypeSymbol) (rest : List (String × TypeSymbol)) :
    Keyed.last? ((name, symbol) :: (path, symbol) :: rest) wanted =
      (Keyed.last? rest wanted).or (if wanted = path then some symbol else none) := by
  have apart : wanted ≠ name := by
    rintro rfl
    exact dots plain
  simp [Keyed.last?_cons, apart]

mutual

theorem last?_registrations : ∀ (symbol : TypeSymbol) (name path : String) (keys : List String),
    symbol.Tidy → Plain name → (∀ key ∈ keys, Plain key) → ¬ Plain (pathOf path keys) →
    Keyed.last? (symbol.registrations name path) (pathOf path keys) = symbol.reach? keys
  | ⟨_, _, _, none, _⟩, name, path, [], _, plain, _, dots => by
    rw [registrations, last?_both plain dots]
    exact if_pos rfl
  | ⟨_, _, _, none, _⟩, name, path, key :: keys, _, plain, simple, dots => by
    rw [registrations, last?_both plain dots]
    exact if_neg (pathOf_cons_ne path simple)
  | ⟨_, _, _, some fields, _⟩, name, path, [], tidy, plain, _, dots => by
    rw [registrations, last?_both plain dots]
    -- The fields lie strictly below the path, so they do not hide the type itself.
    rw [show pathOf path [] = path from rfl] at dots ⊢
    rw [last?_fieldRegistrations_self tidy.2.2 tidy.2.1 dots, if_pos rfl]
    rfl
  | ⟨_, _, _, some fields, _⟩, name, path, key :: keys, tidy, plain, simple, dots => by
    rw [registrations, last?_both plain dots, if_neg (pathOf_cons_ne path simple), Option.or_none]
    exact last?_fieldRegistrations fields path key keys tidy.1 tidy.2.1 tidy.2.2 simple

theorem last?_fieldRegistrations : ∀ (fields : List (String × TypeSymbol)) (path key : String)
    (keys : List String), (Keyed.keys fields).Nodup → (∀ key ∈ Keyed.keys fields, Plain key) →
    fieldsTidy fields → (∀ inner ∈ key :: keys, Plain inner) →
    Keyed.last? (fieldRegistrations path fields) (pathOf path (key :: keys)) =
      (fields.lookup key).bind (reach? keys)
  | [], _, _, _, _, _, _, _ => rfl
  | (other, field) :: rest, path, key, keys, distinct, plain, tidy, simple => by
    have first : Plain other := plain other (List.mem_cons_self ..)
    have later : ∀ key ∈ Keyed.keys rest, Plain key := fun key member =>
      plain key (List.mem_cons_of_mem _ member)
    obtain ⟨new, unique⟩ := List.nodup_cons.mp distinct
    rw [fieldRegistrations, Keyed.last?_append, Keyed.lookup_cons]
    by_cases same : key = other
    · subst same
      -- No later field has the key, so what is found stems from this one.
      rw [last?_fieldRegistrations rest path key keys unique later tidy.2 simple,
        Keyed.lookup_of_not_mem new, Option.bind_none, Option.none_or, if_pos rfl]
      exact last?_registrations field key (dotted path key) keys tidy.1 first
        (fun inner member => simple inner (List.mem_cons_of_mem _ member))
        (not_plain_pathOf path (List.cons_ne_nil key keys))
    · rw [last?_registrations_of_ne tidy.1 first simple same, Option.or_none, if_neg same]
      exact last?_fieldRegistrations rest path key keys unique later tidy.2 simple

end

end TypeSymbol

namespace SymbolTable

/-- A path from a root finds what its keys lead to from there. -/
theorem last?_registrationsOf {roots : List (String × TypeSymbol)} {root : String}
    {keys : List String} (distinct : (Keyed.keys roots).Nodup)
    (plain : ∀ name ∈ Keyed.keys roots, Plain name) (tidy : fieldsTidy roots)
    (rooted : Plain root) (simple : ∀ key ∈ keys, Plain key) (nonempty : keys ≠ []) :
    Keyed.last? (registrationsOf roots) (pathOf root keys) =
      (roots.lookup root).bind (TypeSymbol.reach? keys) := by
  induction roots with
  | nil => rfl
  | cons entry rest ih =>
    obtain ⟨name, symbol⟩ := entry
    obtain ⟨new, unique⟩ := List.nodup_cons.mp distinct
    obtain ⟨first, later⟩ := List.forall_mem_cons.mp plain
    obtain ⟨clean, others⟩ := tidy
    have dots := not_plain_pathOf root nonempty
    unfold registrationsOf at ih ⊢
    rw [List.flatMap_cons, Keyed.last?_append, ih unique later others, Keyed.lookup_cons]
    by_cases same : root = name
    · subst same
      -- As with fields: later roots have other names.
      rw [Keyed.lookup_of_not_mem new, Option.bind_none, Option.none_or, if_pos rfl]
      exact TypeSymbol.last?_registrations symbol root root keys clean first simple dots
    · have missing : Keyed.last? (symbol.registrations name name) (pathOf root keys) = none := by
        refine Keyed.last?_eq_none ?_
        intro entry member equal
        obtain undotted | ⟨those, pure, continues⟩ :=
          TypeSymbol.named_registrations symbol name name clean first entry member
        · exact dots (equal ▸ undotted)
        · exact same (pathOf_inj rooted first simple pure (equal.symm.trans continues)).1
      rw [missing, Option.or_none, if_neg same]

end SymbolTable

end RulesAssist
