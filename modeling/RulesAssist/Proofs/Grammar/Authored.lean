import RulesAssist.Proofs.Grammar.Occurrence

/-! Where a grammar authors methods.

A declaration that names no basic type has the methods that it declares. All such declarations are listed
with their places: first those of the basic types, then those of the root types, each tree from the top and
in the order of its fields.
-/

set_option autoImplicit false

namespace RulesAssist

abbrev Authored := Occurrence × List (String × MethodDecl)

/-- A declaration at a place, alone: it has methods of its own if it declares some and names no basic
type. -/
def Occurrence.authored (place : Occurrence) (methods : Option (List (String × MethodDecl))) :
    Option String → List Authored
  | none => methods.toList.map (place, ·)
  | some _ => []

mutual

def TypeDecl.authored (place : Occurrence) : TypeDecl → List Authored
  | ⟨_, methods, none, basic⟩ => place.authored methods basic
  | ⟨_, methods, some fields, basic⟩ => place.authored methods basic ++ fieldsAuthored place fields

def fieldsAuthored (place : Occurrence) : List (String × TypeDecl) → List Authored
  | [] => []
  | (key, field) :: rest => field.authored (place.below [key]) ++ fieldsAuthored place rest

end

namespace Occurrence

theorem authored_subset (place : Occurrence) (decl : TypeDecl) :
    place.authored decl.methods decl.basicTypeRef ⊆ decl.authored place := by
  obtain ⟨about, methods, fields, basic⟩ := decl
  cases fields with
  | none => exact fun _ => id
  | some fields => exact fun _ => List.mem_append_left _

theorem mem_authored {place : Occurrence} {methods : Option (List (String × MethodDecl))}
    {basic : Option String} {entry : Authored} :
    entry ∈ place.authored methods basic ↔
      entry.1 = place ∧ basic = none ∧ methods = some entry.2 := by
  obtain ⟨other, declared⟩ := entry
  cases basic with
  | none =>
    cases methods with
    | none => simp [authored]
    | some methods => simp [authored, Prod.ext_iff, eq_comm]
  | some name => simp [authored]

end Occurrence

theorem authored_subset_fields {place : Occurrence} {key : String} {field : TypeDecl}
    {fields : List (String × TypeDecl)} (found : fields.lookup key = some field) :
    field.authored (place.below [key]) ⊆ fieldsAuthored place fields := by
  induction fields with
  | nil => cases found
  | cons entry rest ih =>
    intro authored member
    rw [Keyed.lookup_cons] at found
    split at found
    · rename_i same
      cases found
      exact List.mem_append_left _ (same ▸ member)
    · exact List.mem_append_right _ (ih found member)

theorem TypeDecl.authored_subset_own {decl inner : TypeDecl} {keys : List String} {place : Occurrence}
    (leads : decl.own? keys = some inner) :
    (place.below keys).authored inner.methods inner.basicTypeRef ⊆ decl.authored place := by
  induction keys generalizing decl place with
  | nil =>
    cases leads
    rw [Occurrence.below_nil]
    exact place.authored_subset inner
  | cons key rest ih =>
    obtain ⟨about, methods, fields, basic⟩ := decl
    obtain ⟨field, first, onward⟩ := Option.bind_eq_some_iff.mp leads
    cases fields with
    | none => cases first
    | some fields =>
      intro entry member
      rw [← List.singleton_append, ← Occurrence.below_below] at member
      exact List.mem_append_right _ (authored_subset_fields first (ih onward member))

mutual

/-- All that is listed stands at a place below the declaration. -/
theorem TypeDecl.own_of_authored : ∀ (decl : TypeDecl) (place : Occurrence) (entry : Authored),
    (decl.Throughout fun fields => (Keyed.keys fields).Nodup) → entry ∈ decl.authored place →
    ∃ keys inner, entry.1 = place.below keys ∧ decl.own? keys = some inner ∧
      inner.basicTypeRef = none ∧ inner.methods = some entry.2
  | ⟨about, methods, none, basic⟩, place, entry, _, member => by
    obtain ⟨same, bare, declared⟩ := Occurrence.mem_authored.mp member
    exact ⟨[], _, same.trans place.below_nil.symm, rfl, bare, declared⟩
  | ⟨about, methods, some fields, basic⟩, place, entry, distinct, member => by
    rcases List.mem_append.mp member with here | below
    · obtain ⟨same, bare, declared⟩ := Occurrence.mem_authored.mp here
      exact ⟨[], _, same.trans place.below_nil.symm, rfl, bare, declared⟩
    · obtain ⟨key, keys, field, inner, found, same, leads, rest⟩ :=
        own_of_fieldsAuthored fields place entry distinct.1 distinct.2 below
      refine ⟨key :: keys, inner, same, ?_, rest⟩
      rw [TypeDecl.own?, Option.bind_some, found]
      exact leads

theorem own_of_fieldsAuthored : ∀ (fields : List (String × TypeDecl)) (place : Occurrence)
    (entry : Authored), (Keyed.keys fields).Nodup →
    (fieldsThroughout (fun fields => (Keyed.keys fields).Nodup) fields) →
    entry ∈ fieldsAuthored place fields →
    ∃ key keys field inner, fields.lookup key = some field ∧ entry.1 = place.below (key :: keys) ∧
      field.own? keys = some inner ∧ inner.basicTypeRef = none ∧ inner.methods = some entry.2
  | (key, field) :: rest, place, entry, distinct, below, member => by
    obtain ⟨new, unique⟩ := List.nodup_cons.mp distinct
    rcases List.mem_append.mp member with here | later
    · obtain ⟨keys, inner, same, leads, stands⟩ :=
        TypeDecl.own_of_authored field (place.below [key]) entry below.1 here
      rw [Occurrence.below_below, List.singleton_append] at same
      exact ⟨key, keys, field, inner, List.lookup_cons_self, same, leads, stands⟩
    · obtain ⟨other, keys, inside, inner, found, stands⟩ :=
        own_of_fieldsAuthored rest place entry unique below.2 later
      refine ⟨other, keys, inside, inner, ?_, stands⟩
      rw [Keyed.lookup_cons, if_neg, found]
      -- The first field has a key that none of the others has.
      rintro rfl
      exact new (List.mem_map_of_mem (f := (·.1)) (Keyed.mem_of_lookup found))

end

namespace Grammar

variable {grammar : Grammar}

def basicAuthored (grammar : Grammar) : List Authored :=
  grammar.basicTypes.flatMap fun entry => entry.2.authored (.basic entry.1)

def rootAuthored (grammar : Grammar) : List Authored :=
  grammar.types.flatMap fun entry => entry.2.authored (.root entry.1)

def authored (grammar : Grammar) : List Authored :=
  grammar.basicAuthored ++ grammar.rootAuthored

/-- The methods of a name, each with the place of its type. -/
def definitions (grammar : Grammar) (name : String) : List (Occurrence × MethodDecl) :=
  grammar.authored.flatMap fun entry =>
    (entry.2.filter (·.1 == name)).map fun method => (entry.1, method.2)

/-- Inside basic types, the last place of a path at which methods are authored. -/
def holder? (grammar : Grammar) (path : String) : Option Authored :=
  Keyed.last? (grammar.basicAuthored.map fun entry => (entry.1.path, entry)) path

/-- Which authored methods a place shows that has methods of its own: inside a basic type, those at the last
place of the same path. -/
def sourceOf (grammar : Grammar) (place : Occurrence) (methods : List (String × MethodDecl)) : Authored :=
  if place.inBasicType then (grammar.holder? place.path).getD (place, methods) else (place, methods)

theorem mem_basicAuthored {place : Occurrence} {decl : TypeDecl}
    {methods : List (String × MethodDecl)} (inside : place.inBasicType = true)
    (declared : grammar.declared? place = some decl) (bare : decl.basicTypeRef = none)
    (own : decl.methods = some methods) : (place, methods) ∈ grammar.basicAuthored := by
  obtain ⟨_, name, keys⟩ := place
  cases inside
  obtain ⟨top, found, leads⟩ := Option.bind_eq_some_iff.mp declared
  refine List.mem_flatMap.mpr ⟨(name, top), Keyed.mem_of_lookup found, ?_⟩
  have here : (⟨true, name, keys⟩, methods) ∈
      ((Occurrence.basic name).below keys).authored decl.methods decl.basicTypeRef :=
    Occurrence.mem_authored.mpr ⟨rfl, bare, own⟩
  exact TypeDecl.authored_subset_own leads here

theorem declared_of_tree {place : Occurrence} {top : TypeDecl}
    (declared : grammar.declared? place = some top)
    (distinct : top.Throughout fun fields => (Keyed.keys fields).Nodup) {entry : Authored}
    (member : entry ∈ top.authored place) : entry.1.inBasicType = place.inBasicType ∧
      ∃ decl, grammar.declared? entry.1 = some decl ∧ decl.basicTypeRef = none ∧
        decl.methods = some entry.2 := by
  obtain ⟨other, methods⟩ := entry
  obtain ⟨keys, inner, rfl, leads, stands⟩ := top.own_of_authored _ _ distinct member
  refine ⟨rfl, inner, ?_, stands⟩
  rw [declared?_below declared]
  exact leads

theorem declared_of_basicAuthored (distinct : grammar.Distinct) {entry : Authored}
    (member : entry ∈ grammar.basicAuthored) : entry.1.inBasicType = true ∧
      ∃ decl, grammar.declared? entry.1 = some decl ∧ decl.basicTypeRef = none ∧
        decl.methods = some entry.2 := by
  obtain ⟨⟨name, top⟩, listed, below⟩ := List.mem_flatMap.mp member
  have found := Keyed.lookup_of_mem distinct.basicTypes listed
  exact declared_of_tree ((declared?_basic grammar name).trans found)
    (distinct.basicFields _ listed) below

theorem declared_of_authored (distinct : grammar.Distinct) {entry : Authored}
    (member : entry ∈ grammar.authored) : ∃ decl, grammar.declared? entry.1 = some decl ∧
      decl.basicTypeRef = none ∧ decl.methods = some entry.2 := by
  rcases List.mem_append.mp member with inside | outside
  · exact (declared_of_basicAuthored distinct inside).2
  · obtain ⟨⟨name, top⟩, listed, below⟩ := List.mem_flatMap.mp outside
    have declared := declared?_root distinct listed
    exact (declared_of_tree declared (distinct.fields _ listed) below).2

theorem mem_definitions {name : String} {place : Occurrence} {method : MethodDecl} :
    (place, method) ∈ grammar.definitions name ↔
      ∃ methods, (place, methods) ∈ grammar.authored ∧ (name, method) ∈ methods := by
  unfold definitions
  rw [List.mem_flatMap]
  constructor
  · rintro ⟨⟨_, methods⟩, listed, member⟩
    obtain ⟨⟨other, _⟩, kept, same⟩ := List.mem_map.mp member
    obtain ⟨known, equal⟩ := List.mem_filter.mp kept
    cases same
    cases beq_iff_eq.mp equal
    exact ⟨methods, listed, known⟩
  · rintro ⟨methods, listed, known⟩
    refine ⟨(place, methods), listed, List.mem_map.mpr ⟨(name, method), ?_, rfl⟩⟩
    exact List.mem_filter.mpr ⟨known, beq_self_eq_true name⟩

theorem holder?_of_mem {entry : Authored} (member : entry ∈ grammar.basicAuthored) :
    ∃ last, grammar.holder? entry.1.path = some last := by
  unfold holder?
  cases found : Keyed.last? (grammar.basicAuthored.map fun entry => (entry.1.path, entry))
    entry.1.path with
  | some last => exact ⟨last, rfl⟩
  | none =>
    have missing := List.lookup_eq_none_iff.mp found (entry.1.path, entry)
      (List.mem_reverse.mpr (List.mem_map_of_mem member))
    simp at missing

theorem mem_of_holder? {path : String} {last : Authored} (holds : grammar.holder? path = some last) :
    last ∈ grammar.basicAuthored ∧ last.1.path = path := by
  obtain ⟨entry, member, same⟩ :=
    List.mem_map.mp (List.mem_reverse.mp (Keyed.mem_of_lookup holds))
  cases same
  exact ⟨member, rfl⟩

end Grammar

end RulesAssist
