import RulesAssist.Proofs.Grammar.Authored
import RulesAssist.Proofs.Symbol.Compilation
import RulesAssist.Proofs.Symbol.Composition
import RulesAssist.Proofs.Symbol.MethodCache

/-! The method tables that are made in advance.

There is one for each entry of the list of authored methods of the basic types, in the same order. A path
has the table that was made last for a place of that path, so a place keeps its own table if and only if no
later place has the same path.

Annals are kept beside: the tables in the order in which they are made, and for which place each object was
made. Nothing is entered twice, as new objects have new numbers.
-/

set_option autoImplicit false

namespace RulesAssist.Workshop

def store (workshop : Workshop) (entry : Authored) : Workshop :=
  let (table, next) := makeTable entry.2 workshop
  { next with prepared := Keyed.insert entry.1.path table next.prepared }

theorem prepareOwn_eq (place : Occurrence) (methods : Option (List (String × MethodDecl)))
    (basic : Option String) (workshop : Workshop) :
    prepareOwn place.path methods basic workshop =
      (place.authored methods basic).foldl store workshop := by
  cases basic with
  | some name => rfl
  | none => cases methods <;> rfl

mutual

/-- What a declaration prepares is what is authored in it, one after the other. -/
theorem prepare_eq : ∀ (decl : TypeDecl) (place : Occurrence) (workshop : Workshop),
    prepare place.path decl workshop = (decl.authored place).foldl store workshop
  | ⟨_, methods, none, basic⟩, place, workshop => prepareOwn_eq place methods basic workshop
  | ⟨_, methods, some fields, basic⟩, place, workshop => by
    rw [prepare, prepareOwn_eq, prepareFields_eq, TypeDecl.authored, List.foldl_append]

theorem prepareFields_eq : ∀ (fields : List (String × TypeDecl)) (place : Occurrence)
    (workshop : Workshop),
    prepareFields place.path fields workshop = (fieldsAuthored place fields).foldl store workshop
  | [], _, _ => rfl
  | (key, field) :: rest, place, workshop => by
    rw [prepareFields, ← place.path_below, prepare_eq, prepareFields_eq, fieldsAuthored,
      List.foldl_append]

end

theorem prepareAll_eq (grammar : Grammar) (workshop : Workshop) :
    prepareAll grammar.basicTypes workshop = grammar.basicAuthored.foldl store workshop := by
  unfold Grammar.basicAuthored
  generalize grammar.basicTypes = basicTypes
  induction basicTypes generalizing workshop with
  | nil => rfl
  | cons entry rest ih =>
    rw [prepareAll, ih, List.flatMap_cons, List.foldl_append, ← prepare_eq]
    rfl

theorem prepareAll_rule {holds : Workshop → Prop} (start : holds empty)
    (step : ∀ workshop entry, holds workshop → holds (store workshop entry)) (grammar : Grammar) :
    holds (prepareAll grammar.basicTypes empty) := by
  rw [prepareAll_eq]
  exact List.foldlRecOn _ _ start fun workshop held entry _ => step workshop entry held

theorem basicTypes_prepareAll (grammar : Grammar) :
    (prepareAll grammar.basicTypes empty).basicTypes = [] :=
  @prepareAll_rule (fun workshop => workshop.basicTypes = []) rfl
    (fun _ entry none => (adds_makeTable entry.2 _).basicTypes.trans none) grammar

/-- Method tables in the order in which they were made, each with the place that it was made for. -/
abbrev Tables := List (Occurrence × Shared MethodTable)

namespace Tables

def methods (tables : Tables) : Methods :=
  tables.flatMap (·.2.content)

def byPath (tables : Tables) : List (String × Shared MethodTable) :=
  tables.map fun entry => (entry.1.path, entry.2)

theorem methods_append (tables more : Tables) :
    methods (tables ++ more) = tables.methods ++ more.methods :=
  List.flatMap_append

theorem methods_concat (tables : Tables) (place : Occurrence) (table : Shared MethodTable) :
    methods (tables ++ [(place, table)]) = tables.methods ++ table.content := by
  rw [methods_append]
  exact congrArg _ (List.flatMap_singleton ..)

theorem mem_methods {tables : Tables} {entry : Occurrence × Shared MethodTable}
    (member : entry ∈ tables) : entry.2.content ⊆ tables.methods :=
  fun _ method => List.mem_flatMap.mpr ⟨entry, member, method⟩

theorem byPath_concat (tables : Tables) (place : Occurrence) (table : Shared MethodTable) :
    byPath (tables ++ [(place, table)]) = tables.byPath ++ [(place.path, table)] :=
  List.map_append

theorem mem_of_last? {tables : Tables} {path : String} {table : Shared MethodTable}
    (last : Keyed.last? tables.byPath path = some table) :
    ∃ place, (place, table) ∈ tables ∧ place.path = path := by
  obtain ⟨entry, member, same⟩ :=
    List.mem_map.mp (List.mem_reverse.mp (Keyed.mem_of_lookup last))
  cases same
  exact ⟨entry.1, member, rfl⟩

end Tables

abbrev Ledger := Nat → Option Occurrence

/-- The objects from the first number on, up to the second one, are made for one place. -/
def Ledger.enter (ledger : Ledger) (first last : Nat) (place : Occurrence) : Ledger :=
  fun identity => if first ≤ identity ∧ identity < last then some place else ledger identity

structure Annals where
  tables : Tables
  ledger : Ledger

/-- The methods are those of the listed tables, which are entered at their places. Nothing is entered that
is still to be made. -/
structure Kept (annals : Annals) (workshop : Workshop) : Prop where
  cached : Cached annals.tables.methods workshop
  entered : ∀ entry ∈ annals.tables, annals.ledger entry.2.identity = some entry.1
  blank : ∀ identity, workshop.fresh ≤ identity → annals.ledger identity = none

def Annals.enter (annals : Annals) (workshop next : Workshop) (place : Occurrence) : Annals :=
  { annals with ledger := annals.ledger.enter workshop.fresh next.fresh place }

def Annals.enterTable (annals : Annals) (workshop : Workshop) (place : Occurrence)
    (decls : List (String × MethodDecl)) : Annals where
  tables := annals.tables ++ [(place, (makeTable decls workshop).1)]
  ledger := annals.ledger.enter workshop.fresh (makeTable decls workshop).2.fresh place

namespace Kept

variable {annals : Annals} {workshop next : Workshop} {place : Occurrence} (kept : Kept annals workshop)
include kept

theorem lt_fresh {identity : Nat} (entered : annals.ledger identity = some place) :
    identity < workshop.fresh := by
  refine Nat.lt_of_not_le fun late => ?_
  rw [kept.blank identity late] at entered
  cases entered

theorem enter_of_entered {identity : Nat} (entered : annals.ledger identity = some place) (last : Nat)
    (other : Occurrence) : annals.ledger.enter workshop.fresh last other identity = some place := by
  have early := kept.lt_fresh entered
  exact (if_neg (by omega)).trans entered

theorem enter_blank {last identity : Nat} (grows : workshop.fresh ≤ last) (late : last ≤ identity)
    (other : Occurrence) : annals.ledger.enter workshop.fresh last other identity = none :=
  (if_neg (by omega)).trans (kept.blank identity (grows.trans late))

theorem of_later (methods : next.methods = workshop.methods) (fresh : workshop.fresh ≤ next.fresh) :
    Kept annals next where
  cached := kept.cached.of_later methods fresh
  entered := kept.entered
  blank := fun identity late => kept.blank identity (fresh.trans late)

theorem enter (methods : next.methods = workshop.methods) (fresh : workshop.fresh ≤ next.fresh)
    (place : Occurrence) : Kept (annals.enter workshop next place) next where
  cached := kept.cached.of_later methods fresh
  entered := fun entry member => kept.enter_of_entered (kept.entered entry member) _ place
  blank := fun _ late => kept.enter_blank fresh late place

theorem enterTable (place : Occurrence) (decls : List (String × MethodDecl)) :
    Kept (annals.enterTable workshop place decls) (makeTable decls workshop).2 where
  cached := by
    unfold Annals.enterTable
    rw [Tables.methods_concat]
    exact cached_makeTable kept.cached decls
  entered := by
    intro entry member
    rcases List.mem_append.mp member with before | last
    · exact kept.enter_of_entered (kept.entered entry before) _ place
    · cases List.mem_singleton.mp last
      exact if_pos (identity_makeTable decls workshop)
  blank := fun _ late => kept.enter_blank (adds_makeTable decls workshop).fresh late place

end Kept

def Records (entry : Occurrence × Shared MethodTable) (authored : Authored) : Prop :=
  entry.1 = authored.1 ∧ contentsOf entry.2.content = infosOf authored.2

/-- The tables of a list of authored methods, and nothing else, have been made. -/
structure Stored (annals : Annals) (authored : List Authored) (workshop : Workshop) : Prop where
  records : List.Forall₂ Records annals.tables authored
  kept : Kept annals workshop
  prepared : ∀ path, workshop.prepared.lookup path = Keyed.last? annals.tables.byPath path
  omissions : workshop.omissions = []

theorem Stored.store {annals : Annals} {authored : List Authored} {workshop : Workshop}
    (stored : Stored annals authored workshop) (entry : Authored) :
    Stored (annals.enterTable workshop entry.1 entry.2) (authored ++ [entry])
      (workshop.store entry) where
  records := List.rel_append stored.records
    (.cons ⟨rfl, contents_makeTable entry.2 workshop⟩ .nil)
  kept := (stored.kept.enterTable entry.1 entry.2).of_later rfl (Nat.le_refl _)
  prepared := by
    intro path
    have before := (adds_makeTable entry.2 workshop).prepared
    change (Keyed.insert entry.1.path (makeTable entry.2 workshop).1
      (makeTable entry.2 workshop).2.prepared).lookup path = Keyed.last? (Tables.byPath (_ ++ _)) path
    rw [Keyed.lookup_insert, Tables.byPath_concat, Keyed.last?_append, before, stored.prepared,
      Keyed.last?_cons]
    by_cases same : path = entry.1.path
    · rw [if_pos same, if_pos (beq_iff_eq.mpr same)]
      rfl
    · rw [if_neg same, if_neg (mt beq_iff_eq.mp same)]
      rfl
  omissions := (adds_makeTable entry.2 workshop).omissions.trans stored.omissions

theorem exists_stored (grammar : Grammar) :
    ∃ annals, Stored annals grammar.basicAuthored (prepareAll grammar.basicTypes empty) := by
  rw [prepareAll_eq]
  induction grammar.basicAuthored using List.reverseRecOn with
  | nil => exact ⟨⟨[], fun _ => none⟩, .nil, ⟨cached_empty, nofun, fun _ _ => rfl⟩, fun _ => rfl, rfl⟩
  | append_singleton done entry ih =>
    obtain ⟨annals, stored⟩ := ih
    rw [List.foldl_concat]
    exact ⟨_, stored.store entry⟩

theorem Stored.exists_of_lookup {annals : Annals} {authored : List Authored} {workshop : Workshop}
    (stored : Stored annals authored workshop) {path : String} {table : Shared MethodTable}
    (found : workshop.prepared.lookup path = some table) :
    ∃ entry ∈ authored, entry.1.path = path ∧ (entry.1, table) ∈ annals.tables ∧
      contentsOf table.content = infosOf entry.2 := by
  rw [stored.prepared] at found
  obtain ⟨place, member, here⟩ := Tables.mem_of_last? found
  obtain ⟨entry, listed, same, contents⟩ := exists_of_forall₂ stored.records member
  cases same
  exact ⟨entry, listed, here, member, contents⟩

/-- A path has a table made in advance if and only if methods are authored at a place of that path, and the
table holds those of the last such place. -/
theorem holder_of_records {grammar : Grammar} {first : Tables}
    (records : List.Forall₂ Records first grammar.basicAuthored) (path : String) :
    Option.Rel (fun table last => contentsOf table.content = infosOf last.2)
      (Keyed.last? first.byPath path) (grammar.holder? path) := by
  unfold Grammar.holder? Tables.byPath
  generalize grammar.basicAuthored = authored at records
  induction records with
  | nil => exact .none
  | @cons entry authored others list same _ ih =>
    rw [List.map_cons, List.map_cons, Keyed.last?_cons, Keyed.last?_cons, same.1]
    generalize Keyed.last? (others.map fun entry => (entry.1.path, entry.2)) path = table at ih ⊢
    generalize Keyed.last? (list.map fun entry => (entry.1.path, entry)) path = last at ih ⊢
    cases ih with
    | some contents => exact .some contents
    | none =>
      -- No later place has the path.
      dsimp only [Option.none_or]
      split
      · exact .some same.2
      · exact .none

end RulesAssist.Workshop
