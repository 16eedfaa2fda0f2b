import RulesAssist.Proofs.Grammar.Reference

/-! Where a grammar declares a type, and which of these places a path leads to.

A key leads to an own field of that key, or else to the field of that key of the basic type that is
named. So it leads to one place only, and that place may be in the tree of another type.
-/

set_option autoImplicit false

namespace RulesAssist

namespace TypeDecl

def own? : List String → TypeDecl → Option TypeDecl
  | [], decl => some decl
  | key :: keys, decl => (decl.fields.bind fun fields => fields.lookup key).bind (own? keys)

theorem own?_append (decl : TypeDecl) (keys others : List String) :
    decl.own? (keys ++ others) = (decl.own? keys).bind (own? others) := by
  induction keys generalizing decl with
  | nil => rfl
  | cons key rest ih =>
    rw [List.cons_append, own?, own?]
    cases decl.fields.bind fun fields => fields.lookup key with
    | none => rfl
    | some field => exact ih field

theorem own?_singleton (decl : TypeDecl) (key : String) :
    decl.own? [key] = decl.fields.bind fun fields => fields.lookup key := by
  rw [own?]
  exact Option.bind_fun_some _

theorem throughout_own {property : List (String × TypeDecl) → Prop} {decl inner : TypeDecl}
    {keys : List String} (throughout : decl.Throughout property) (leads : decl.own? keys = some inner) :
    inner.Throughout property := by
  induction keys generalizing decl with
  | nil =>
    cases leads
    exact throughout
  | cons key rest ih =>
    obtain ⟨field, first, onward⟩ := Option.bind_eq_some_iff.mp leads
    obtain ⟨fields, own, found⟩ := Option.bind_eq_some_iff.mp first
    exact ih ((throughout_iff.mp throughout fields own).2 _ (Keyed.mem_of_lookup found)) onward

theorem plain_own {decl inner : TypeDecl} {keys : List String}
    (plain : decl.Throughout fun fields => ∀ field ∈ fields, Plain field.1)
    (leads : decl.own? keys = some inner) : ∀ key ∈ keys, Plain key := by
  induction keys generalizing decl with
  | nil => exact List.forall_mem_nil _
  | cons key rest ih =>
    obtain ⟨field, first, onward⟩ := Option.bind_eq_some_iff.mp leads
    obtain ⟨fields, own, found⟩ := Option.bind_eq_some_iff.mp first
    obtain ⟨here, below⟩ := throughout_iff.mp plain fields own
    have member := Keyed.mem_of_lookup found
    exact List.forall_mem_cons.mpr ⟨here _ member, ih (below _ member) onward⟩

end TypeDecl

/-- A place in a grammar: a root or a basic type, and keys that lead on from it through own fields. -/
structure Occurrence where
  inBasicType : Bool
  name : String
  keys : List String
  deriving DecidableEq, Repr

namespace Occurrence

def root (name : String) : Occurrence := ⟨false, name, []⟩

def basic (name : String) : Occurrence := ⟨true, name, []⟩

def below (place : Occurrence) (keys : List String) : Occurrence :=
  { place with keys := place.keys ++ keys }

/-- Keys that have dots of their own may make the paths of two places equal. -/
def path (place : Occurrence) : String :=
  pathOf place.name place.keys

theorem below_nil (place : Occurrence) : place.below [] = place := by
  unfold below
  rw [List.append_nil]

theorem below_below (place : Occurrence) (keys others : List String) :
    (place.below keys).below others = place.below (keys ++ others) := by
  unfold below
  rw [List.append_assoc]

theorem path_below (place : Occurrence) (key : String) :
    (place.below [key]).path = dotted place.path key :=
  pathOf_concat place.name place.keys key

/-- No part of the path has a dot of its own. -/
structure Undotted (place : Occurrence) : Prop where
  name : Plain place.name
  keys : ∀ key ∈ place.keys, Plain key

theorem Undotted.path_inj {place other : Occurrence} (undotted : place.Undotted)
    (plain : other.Undotted) (kinds : place.inBasicType = other.inBasicType)
    (paths : place.path = other.path) : place = other := by
  obtain ⟨inside, name, keys⟩ := place
  obtain ⟨within, root, others⟩ := other
  obtain ⟨rfl, rfl⟩ := pathOf_inj undotted.name plain.name undotted.keys plain.keys paths
  cases kinds
  rfl

end Occurrence

namespace Grammar

def declared? (grammar : Grammar) (place : Occurrence) : Option TypeDecl :=
  ((if place.inBasicType then grammar.basicTypes else grammar.types).lookup place.name).bind
    (TypeDecl.own? place.keys)

/-- A key leads to an own field, or else to what it leads to in the basic type. -/
inductive Leads (grammar : Grammar) (key : String) : Occurrence → Occurrence → Prop where
  | own {place : Occurrence} {field : TypeDecl} :
      grammar.declared? (place.below [key]) = some field →
      Leads grammar key place (place.below [key])
  | inherited {place target : Occurrence} {decl : TypeDecl} {name : String} :
      grammar.declared? place = some decl → grammar.declared? (place.below [key]) = none →
      decl.basicTypeRef = some name → Leads grammar key (.basic name) target →
      Leads grammar key place target

inductive Follows (grammar : Grammar) : Occurrence → List String → Occurrence → Prop where
  | here {place : Occurrence} : Follows grammar place [] place
  | through {place next last : Occurrence} {key : String} {keys : List String} :
      grammar.Leads key place next → Follows grammar next keys last →
      Follows grammar place (key :: keys) last

/-- A path from a root leads to a place. -/
def Site (grammar : Grammar) (path : String) (place : Occurrence) : Prop :=
  ∃ root keys, Plain root ∧ (∀ key ∈ keys, Plain key) ∧ keys ≠ [] ∧ path = pathOf root keys ∧
    grammar.Follows (.root root) keys place

/-- Where the chain of basic types ends that a place starts: at a declaration that names no basic type,
or one that does not exist. -/
inductive Ends (grammar : Grammar) : Occurrence → Occurrence → Prop where
  | here {place : Occurrence} {decl : TypeDecl} :
      grammar.declared? place = some decl → grammar.basicOf decl = none → Ends grammar place place
  | onward {place last : Occurrence} {decl : TypeDecl} {name : String} :
      grammar.declared? place = some decl → decl.basicTypeRef = some name →
      Ends grammar (.basic name) last → Ends grammar place last

variable {grammar : Grammar}

theorem declared?_basic (grammar : Grammar) (name : String) :
    grammar.declared? (.basic name) = grammar.basicTypes.lookup name :=
  Option.bind_fun_some _

theorem declared?_below {place : Occurrence} {decl : TypeDecl}
    (declared : grammar.declared? place = some decl) (keys : List String) :
    grammar.declared? (place.below keys) = decl.own? keys := by
  obtain ⟨top, found, reached⟩ := Option.bind_eq_some_iff.mp declared
  unfold declared? Occurrence.below
  rw [found, Option.bind_some, TypeDecl.own?_append, reached, Option.bind_some]

theorem declared?_root (distinct : grammar.Distinct) {entry : String × TypeDecl}
    (member : entry ∈ grammar.types) : grammar.declared? (.root entry.1) = some entry.2 :=
  (Option.bind_fun_some _).trans (Keyed.lookup_of_mem distinct.types member)

section

variable {place : Occurrence} {decl : TypeDecl} (declared : grammar.declared? place = some decl)
include declared

theorem distinct_of_declared (distinct : grammar.Distinct) :
    decl.Throughout fun fields => (Keyed.keys fields).Nodup := by
  obtain ⟨inside, name, keys⟩ := place
  obtain ⟨top, found, leads⟩ := Option.bind_eq_some_iff.mp declared
  have member := Keyed.mem_of_lookup found
  cases inside with
  | true => exact TypeDecl.throughout_own (distinct.basicFields _ member) leads
  | false => exact TypeDecl.throughout_own (distinct.fields _ member) leads

theorem undotted_of_declared (undotted : grammar.Undotted) : place.Undotted := by
  obtain ⟨inside, name, keys⟩ := place
  obtain ⟨top, found, leads⟩ := Option.bind_eq_some_iff.mp declared
  have member := Keyed.mem_of_lookup found
  cases inside with
  | true => exact ⟨undotted.basicTypes _ member, TypeDecl.plain_own (undotted.basicFields _ member) leads⟩
  | false => exact ⟨undotted.types _ member, TypeDecl.plain_own (undotted.fields _ member) leads⟩

theorem declared?_field (distinct : grammar.Distinct) {own : List (String × TypeDecl)}
    (fields : decl.fields = some own) {entry : String × TypeDecl} (member : entry ∈ own) :
    grammar.declared? (place.below [entry.1]) = some entry.2 := by
  have unique := (TypeDecl.throughout_iff.mp (distinct_of_declared declared distinct) own fields).1
  rw [declared?_below declared, TypeDecl.own?_singleton, fields]
  exact Keyed.lookup_of_mem unique member

end

theorem Leads.unique {key : String} {place first second : Occurrence}
    (leads : grammar.Leads key place first) (also : grammar.Leads key place second) :
    first = second := by
  induction leads with
  | own declared =>
    cases also with
    | own _ => rfl
    | inherited _ missing _ _ =>
      rw [missing] at declared
      cases declared
  | inherited declared missing named _ ih =>
    cases also with
    | own found =>
      rw [missing] at found
      cases found
    | inherited again _ referred leads =>
      rw [declared, Option.some.injEq] at again
      subst again
      rw [named, Option.some.injEq] at referred
      subst referred
      exact ih leads

theorem Follows.unique {keys : List String} {place first second : Occurrence}
    (follows : grammar.Follows place keys first) (also : grammar.Follows place keys second) :
    first = second := by
  induction follows with
  | here =>
    cases also
    rfl
  | through leads _ ih =>
    cases also with
    | through again further =>
      cases leads.unique again
      exact ih further

theorem Site.unique {path : String} {first second : Occurrence} (site : grammar.Site path first)
    (also : grammar.Site path second) : first = second := by
  obtain ⟨root, keys, rooted, plain, _, rfl, follows⟩ := site
  obtain ⟨other, others, grounded, simple, _, same, leads⟩ := also
  obtain ⟨rfl, rfl⟩ := pathOf_inj rooted grounded plain simple same
  exact follows.unique leads

theorem Ends.declared {place last : Occurrence} (ends : grammar.Ends place last) :
    ∃ decl, grammar.declared? place = some decl := by
  cases ends with
  | here declared _ => exact ⟨_, declared⟩
  | onward declared _ _ => exact ⟨_, declared⟩

theorem Ends.unique {place first second : Occurrence} (ends : grammar.Ends place first)
    (also : grammar.Ends place second) : first = second := by
  -- A chain that goes on has an existing basic type, so it cannot end where it does.
  have onward : ∀ {decl : TypeDecl} {name : String} {last : Occurrence},
      decl.basicTypeRef = some name → grammar.Ends (.basic name) last →
      grammar.basicOf decl ≠ none := by
    intro decl name last named further missing
    obtain ⟨basic, found⟩ := further.declared
    rw [declared?_basic] at found
    rw [basicOf, named, Option.bind_some, found] at missing
    cases missing
  induction ends with
  | here declared missing =>
    cases also with
    | here _ _ => rfl
    | onward again named further =>
      rw [declared, Option.some.injEq] at again
      subst again
      exact absurd missing (onward named further)
  | onward declared named further ih =>
    cases also with
    | here again missing =>
      rw [declared, Option.some.injEq] at again
      subst again
      exact absurd missing (onward named further)
    | onward again referred leads =>
      rw [declared, Option.some.injEq] at again
      subst again
      rw [named, Option.some.injEq] at referred
      subst referred
      exact ih leads

end Grammar

end RulesAssist
