import RulesAssist.Keyed
import RulesAssist.Proofs.Grammar.Path

/-! What a grammar says about its types, by the declarations alone.

A declaration that names an existing basic type has its methods, and its own fields over the fields of
that type. Nothing here is compiled: fields lead from declaration to declaration.
-/

set_option autoImplicit false

namespace RulesAssist

mutual

/-- A property of every list of fields in the tree of a declaration. -/
def TypeDecl.Throughout (property : List (String × TypeDecl) → Prop) : TypeDecl → Prop
  | ⟨_, _, none, _⟩ => True
  | ⟨_, _, some fields, _⟩ => property fields ∧ fieldsThroughout property fields

def fieldsThroughout (property : List (String × TypeDecl) → Prop) : List (String × TypeDecl) → Prop
  | [] => True
  | (_, field) :: rest => field.Throughout property ∧ fieldsThroughout property rest

end

namespace Grammar

structure Distinct (grammar : Grammar) : Prop where
  basicTypes : (Keyed.keys grammar.basicTypes).Nodup
  types : (Keyed.keys grammar.types).Nodup
  basicFields : ∀ entry ∈ grammar.basicTypes,
    entry.2.Throughout fun fields => (Keyed.keys fields).Nodup
  fields : ∀ entry ∈ grammar.types, entry.2.Throughout fun fields => (Keyed.keys fields).Nodup

structure Undotted (grammar : Grammar) : Prop where
  basicTypes : ∀ entry ∈ grammar.basicTypes, Plain entry.1
  types : ∀ entry ∈ grammar.types, Plain entry.1
  basicFields : ∀ entry ∈ grammar.basicTypes,
    entry.2.Throughout fun fields => ∀ field ∈ fields, Plain field.1
  fields : ∀ entry ∈ grammar.types,
    entry.2.Throughout fun fields => ∀ field ∈ fields, Plain field.1

def Refers (grammar : Grammar) (name target : String) : Prop :=
  ∃ decl, grammar.basicTypes.lookup name = some decl ∧ target ∈ decl.references

/-- No basic type reaches itself through the basic types that it names. -/
def Acyclic (grammar : Grammar) : Prop :=
  ∀ name, ¬ Relation.TransGen grammar.Refers name name

def basicOf (grammar : Grammar) (decl : TypeDecl) : Option TypeDecl :=
  decl.basicTypeRef.bind fun name => grammar.basicTypes.lookup name

/-- Own fields over inherited ones: a known key keeps its place, and a new one goes to the end. -/
def overlay (inherited own : Option (List (String × TypeDecl))) : Option (List (String × TypeDecl)) :=
  match own with
  | none => inherited
  | some fields => some (Keyed.merge (inherited.getD []) fields)

inductive Members (grammar : Grammar) : TypeDecl → Option (List (String × MethodDecl)) →
    Option (List (String × TypeDecl)) → Prop where
  | own {decl : TypeDecl} : grammar.basicOf decl = none →
      Members grammar decl decl.methods decl.fields
  | inherited {decl basic : TypeDecl} {methods : Option (List (String × MethodDecl))}
      {fields : Option (List (String × TypeDecl))} :
      grammar.basicOf decl = some basic → Members grammar basic methods fields →
      Members grammar decl methods (overlay fields decl.fields)

inductive Reaches (grammar : Grammar) : TypeDecl → List String → TypeDecl → Prop where
  | here {decl : TypeDecl} : Reaches grammar decl [] decl
  | through {decl field last : TypeDecl} {methods : Option (List (String × MethodDecl))}
      {fields : List (String × TypeDecl)} {key : String} {keys : List String} :
      Members grammar decl methods (some fields) → fields.lookup key = some field →
      Reaches grammar field keys last → Reaches grammar decl (key :: keys) last

def Locates (grammar : Grammar) (root : String) (keys : List String) (last : TypeDecl) : Prop :=
  ∃ decl, grammar.types.lookup root = some decl ∧ grammar.Reaches decl keys last

mutual

/-- A declaration under its name, and then all that its fields lead to, in order. -/
inductive Lists (grammar : Grammar) : String → TypeDecl → List (String × TypeDecl) → Prop where
  | bare {name : String} {decl : TypeDecl} {methods : Option (List (String × MethodDecl))} :
      Members grammar decl methods none → Lists grammar name decl [(name, decl)]
  | composed {name : String} {decl : TypeDecl} {methods : Option (List (String × MethodDecl))}
      {fields nodes : List (String × TypeDecl)} :
      Members grammar decl methods (some fields) → ListsAll grammar fields nodes →
      Lists grammar name decl ((name, decl) :: nodes)

inductive ListsAll (grammar : Grammar) :
    List (String × TypeDecl) → List (String × TypeDecl) → Prop where
  | nil : ListsAll grammar [] []
  | cons {key : String} {field : TypeDecl} {rest nodes others : List (String × TypeDecl)} :
      Lists grammar key field nodes → ListsAll grammar rest others →
      ListsAll grammar ((key, field) :: rest) (nodes ++ others)

end

/-- What the declarations say a name stands for.

A path stands for the declaration that it leads to, if it leads to one, and a name without a dot for
the last declaration of that name. -/
inductive Means (grammar : Grammar) : String → Option TypeDecl → Prop where
  | located {root : String} {keys : List String} {answer : Option TypeDecl} : Plain root →
      (∀ key ∈ keys, Plain key) → keys ≠ [] →
      (∀ decl, answer = some decl ↔ grammar.Locates root keys decl) →
      Means grammar (pathOf root keys) answer
  | listed {name : String} {nodes : List (String × TypeDecl)} : Plain name →
      ListsAll grammar grammar.types nodes → Means grammar name (Keyed.last? nodes name)

variable {grammar : Grammar}

/-- A grammar is acyclic if every basic type only names lower ones. -/
theorem acyclic_of_rank (rank : String → Nat)
    (falls : ∀ name target, grammar.Refers name target → rank target < rank name) :
    grammar.Acyclic := by
  have falling : ∀ {name target}, Relation.TransGen grammar.Refers name target →
      rank target < rank name := by
    intro name target steps
    induction steps with
    | single refers => exact falls _ _ refers
    | tail _ refers before => exact Nat.lt_trans (falls _ _ refers) before
  exact fun name circle => Nat.lt_irrefl _ (falling circle)

theorem Members.unique {decl : TypeDecl}
    {methods others : Option (List (String × MethodDecl))}
    {fields those : Option (List (String × TypeDecl))} (first : grammar.Members decl methods fields)
    (second : grammar.Members decl others those) : methods = others ∧ fields = those := by
  induction first generalizing others those with
  | own none =>
    cases second with
    | own _ => exact ⟨rfl, rfl⟩
    | inherited some _ =>
      rw [none] at some
      cases some
  | inherited some _ ih =>
    cases second with
    | own none =>
      rw [none] at some
      cases some
    | inherited other members =>
      rw [some, Option.some.injEq] at other
      subst other
      obtain ⟨methods, fields⟩ := ih members
      exact ⟨methods, by rw [fields]⟩

theorem not_reaches_cons {decl last : TypeDecl} {methods : Option (List (String × MethodDecl))}
    {key : String} {keys : List String} (members : grammar.Members decl methods none) :
    ¬ grammar.Reaches decl (key :: keys) last := by
  rintro (_ | ⟨others, _, _⟩)
  cases (members.unique others).2

theorem reaches_cons_iff {decl last : TypeDecl} {methods : Option (List (String × MethodDecl))}
    {fields : List (String × TypeDecl)} {key : String} {keys : List String}
    (members : grammar.Members decl methods (some fields)) :
    grammar.Reaches decl (key :: keys) last ↔
      ∃ field, fields.lookup key = some field ∧ grammar.Reaches field keys last := by
  constructor
  · rintro (_ | ⟨others, found, reaches⟩)
    cases (members.unique others).2
    exact ⟨_, found, reaches⟩
  · rintro ⟨field, found, reaches⟩
    exact .through members found reaches

theorem Reaches.unique {decl last other : TypeDecl} {keys : List String}
    (first : grammar.Reaches decl keys last) (second : grammar.Reaches decl keys other) : last = other := by
  induction first with
  | here =>
    cases second
    rfl
  | through members found _ ih =>
    obtain ⟨field, known, reaches⟩ := (reaches_cons_iff members).mp second
    cases found.symm.trans known
    exact ih reaches

theorem Locates.means {root : String} {keys : List String} {last : TypeDecl} (rooted : Plain root)
    (plain : ∀ key ∈ keys, Plain key) (nonempty : keys ≠ []) (locates : grammar.Locates root keys last) :
    grammar.Means (pathOf root keys) (some last) := by
  refine .located rooted plain nonempty fun decl => ?_
  constructor
  · rintro ⟨⟩
    exact locates
  · rintro ⟨top, known, again⟩
    obtain ⟨first, found, reaches⟩ := locates
    cases found.symm.trans known
    exact congrArg some (reaches.unique again)

mutual

theorem Lists.unique {name : String} {decl : TypeDecl} {nodes others : List (String × TypeDecl)} :
    Lists grammar name decl nodes → Lists grammar name decl others → nodes = others
  | .bare members, second => by
    cases second with
    | bare _ => rfl
    | composed those _ => cases (members.unique those).2
  | .composed members below, second => by
    cases second with
    | bare those => cases (members.unique those).2
    | composed those beneath =>
      cases (members.unique those).2
      rw [below.unique beneath]

theorem ListsAll.unique {fields nodes others : List (String × TypeDecl)} :
    ListsAll grammar fields nodes → ListsAll grammar fields others → nodes = others
  | .nil, .nil => rfl
  | .cons first rest, .cons other those => by rw [first.unique other, rest.unique those]

end

theorem Means.unique {name : String} {answer other : Option TypeDecl}
    (first : grammar.Means name answer) (second : grammar.Means name other) : answer = other := by
  generalize same : name = text at second
  cases first with
  | located rooted plain nonempty finds =>
    cases second with
    | located grounded simple _ meets =>
      obtain ⟨rfl, rfl⟩ := pathOf_inj rooted grounded plain simple same
      exact Option.ext fun decl => (finds decl).trans (meets decl).symm
    | listed undotted _ => exact absurd (same ▸ undotted) (not_plain_pathOf _ nonempty)
  | listed undotted all =>
    cases second with
    | located _ _ nonempty _ => exact absurd (same ▸ undotted) (not_plain_pathOf _ nonempty)
    | listed _ those =>
      subst same
      rw [all.unique those]

end Grammar

theorem fieldsThroughout_iff {property : List (String × TypeDecl) → Prop}
    {fields : List (String × TypeDecl)} :
    fieldsThroughout property fields ↔ ∀ field ∈ fields, field.2.Throughout property := by
  induction fields with
  | nil => simp [fieldsThroughout]
  | cons field rest ih => simp [fieldsThroughout, ih]

theorem TypeDecl.throughout_iff {property : List (String × TypeDecl) → Prop} {decl : TypeDecl} :
    decl.Throughout property ↔ ∀ fields, decl.fields = some fields →
      property fields ∧ ∀ field ∈ fields, field.2.Throughout property := by
  obtain ⟨about, methods, fields, basic⟩ := decl
  cases fields with
  | none => simp [TypeDecl.Throughout]
  | some fields => simp [TypeDecl.Throughout, fieldsThroughout_iff]

end RulesAssist
