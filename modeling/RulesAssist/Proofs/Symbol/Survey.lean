import RulesAssist.Proofs.Symbol.Orderly
import RulesAssist.Proofs.Symbol.Preparation

/-! What is right of everything that is compiled.

A survey says what is right of a type that was compiled for a declaration, and what holds at every moment of a
compilation. Beside the compilation it may keep a note of its own. If each step keeps to it, so does every part
of a compilation, and so does the whole: what a type inherits was compiled before and stayed right, and its own
fields have been compiled one by one.
-/

set_option autoImplicit false

namespace RulesAssist

/-- What a place that is not inside a basic type adds to what is made on the way. -/
def Occurrence.additions (place : Occurrence) (authored : List Authored) : List Authored :=
  if place.inBasicType then [] else authored

theorem Occurrence.additions_append (place : Occurrence) (authored others : List Authored) :
    place.additions (authored ++ others) = place.additions authored ++ place.additions others := by
  unfold additions
  split <;> rfl

@[simp]
theorem Occurrence.additions_nil (place : Occurrence) : place.additions [] = [] := by
  unfold additions
  split <;> rfl

namespace Grammar

/-- A basic type that does not exist, or that leads back to itself. -/
def Unobtainable (grammar : Grammar) (name : String) : Prop :=
  grammar.basicTypes.lookup name = none ∨ Relation.TransGen grammar.Refers name name

def Awaits (grammar : Grammar) (underWay : Finset String) (name : String) : Prop :=
  ∀ other ∈ underWay, Relation.TransGen grammar.Refers other name

/-- What holds of all declarations at their places, as it passes on to fields. -/
structure Passes (grammar : Grammar) (stands : Occurrence → TypeDecl → Prop) : Prop where
  basic : ∀ name decl, grammar.basicTypes.lookup name = some decl → stands (.basic name) decl
  root : ∀ entry ∈ grammar.types, stands (.root entry.1) entry.2
  field : ∀ place decl own, stands place decl → decl.fields = some own →
    ∀ entry ∈ own, stands (place.below [entry.1]) entry.2

variable {grammar : Grammar}

theorem passes_declared (distinct : grammar.Distinct) :
    grammar.Passes fun place decl => grammar.declared? place = some decl where
  basic := fun name _ found => (declared?_basic grammar name).trans found
  root := fun _ => declared?_root distinct
  field := fun _ _ _ declared own _ => declared?_field declared distinct own

theorem Awaits.onward {underWay : Finset String} {name target : String}
    (awaits : grammar.Awaits underWay name) (refers : grammar.Refers name target) :
    grammar.Awaits (insert name underWay) target := by
  intro other member
  rcases Finset.mem_insert.mp member with rfl | earlier
  · exact .single refers
  · exact .tail (awaits other earlier) refers

theorem passes_trivially : grammar.Passes fun _ _ => True :=
  ⟨fun _ _ _ => trivial, fun _ _ => trivial, fun _ _ _ _ _ _ _ => trivial⟩

end Grammar

namespace Workshop

open Course

variable {grammar : Grammar} {tale : List Deed} {Note : Type}

structure Moment (Note : Type) where
  note : Note
  workshop : Workshop

/-- The finished basic type that a declaration inherits from. If there is none, none is named, or the loss is
noted. -/
inductive Base (grammar : Grammar) (workshop : Workshop) (place : Occurrence) (decl : TypeDecl) :
    Option TypeSymbol → Prop where
  | unnamed : decl.basicTypeRef = none → Base grammar workshop place decl none
  | lost {name : String} : decl.basicTypeRef = some name → grammar.Unobtainable name →
      .reference place.path name ∈ workshop.omissions → Base grammar workshop place decl none
  | finished {name : String} {basic : TypeSymbol} : decl.basicTypeRef = some name →
      workshop.basicTypes.lookup name = some basic → Base grammar workshop place decl (some basic)

theorem Base.basicOf_eq_none {workshop : Workshop} {place : Occurrence} {decl : TypeDecl}
    (base : Base grammar workshop place decl none) (acyclic : grammar.Acyclic) :
    grammar.basicOf decl = none := by
  unfold Grammar.basicOf
  cases base with
  | unnamed bare => rw [bare, Option.bind_none]
  | lost named unobtainable _ =>
    rw [named, Option.bind_some]
    exact unobtainable.resolve_right (acyclic _)

/-- What is claimed of a compilation: of the declarations, of every moment, of how one moment leads to another
one, of a type whose methods are at hand, and of a type that is compiled. What is authored outside the basic
types is told of in order. -/
structure Survey (grammar : Grammar) (tale : List Deed) (Note : Type) where
  stands : Occurrence → TypeDecl → Prop
  sound : Moment Note → Prop
  later : Moment Note → List Authored → Moment Note → Prop
  begun : Moment Note → Occurrence → TypeDecl → Option TypeSymbol → Option (Shared MethodTable) → Prop
  right : Moment Note → Occurrence → TypeDecl → TypeSymbol → Prop

namespace Survey

def Leads (survey : Survey grammar tale Note) (now : Moment Note) (authored : List Authored)
    (workshop : Workshop) (holds : Moment Note → Prop) : Prop :=
  ∃ note, survey.later now authored ⟨note, workshop⟩ ∧ holds ⟨note, workshop⟩

/-- All basic types that are finished are right. -/
structure Good (survey : Survey grammar tale Note) (now : Moment Note) : Prop where
  sound : survey.sound now
  finished : ∀ name symbol, now.workshop.basicTypes.lookup name = some symbol →
    ∃ decl, grammar.basicTypes.lookup name = some decl ∧ survey.right now (.basic name) decl symbol

theorem Good.inherited {survey : Survey grammar tale Note} {now : Moment Note} (good : survey.Good now)
    {place : Occurrence} {decl : TypeDecl} {basic : TypeSymbol}
    (base : Base grammar now.workshop place decl (some basic)) :
    ∃ name origin, decl.basicTypeRef = some name ∧ grammar.basicTypes.lookup name = some origin ∧
      survey.right now (.basic name) origin basic := by
  cases base with
  | @finished name _ named done =>
    obtain ⟨origin, found, right⟩ := good.finished name basic done
    exact ⟨name, origin, named, found, right⟩

/-- Every step keeps to a survey. -/
structure Lawful (survey : Survey grammar tale Note) : Prop where
  passes : grammar.Passes survey.stands
  refl : ∀ now, survey.later now [] now
  trans : ∀ {now between last authored others}, survey.later now authored between →
    survey.later between others last → survey.later now (authored ++ others) last
  begun_later : ∀ {now last authored place decl inherited table}, survey.later now authored last →
    survey.begun now place decl inherited table → survey.begun last place decl inherited table
  right_later : ∀ {now last authored place decl symbol}, survey.later now authored last →
    survey.right now place decl symbol → survey.right last place decl symbol
  lose : ∀ now place decl name, survey.Good now → survey.stands place decl →
    decl.basicTypeRef = some name → grammar.Unobtainable name →
    survey.Leads now []
      { now.workshop with omissions := now.workshop.omissions ++ [.reference place.path name] }
      survey.sound
  equip : ∀ now place decl inherited taken, survey.Good now → survey.stands place decl →
    Base grammar now.workshop place decl inherited →
    Equips place.site now.workshop inherited decl.methods taken →
    survey.Leads now (place.additions (place.authored decl.methods decl.basicTypeRef)) taken.2
      fun next => survey.sound next ∧ survey.begun next place decl inherited taken.1
  finish : ∀ now place decl inherited table fields, survey.Good now → survey.stands place decl →
    survey.begun now place decl inherited table →
    Composes (fun key => survey.right now (place.below [key])) (inherited.bind (·.fields)) decl.fields
      fields →
    let symbol : TypeSymbol := ⟨now.workshop.fresh, decl.about, table, fields, decl.basicTypeRef⟩
    .made decl inherited symbol ∈ tale →
    survey.Leads now [] { now.workshop with fresh := now.workshop.fresh + 1 }
      fun next => survey.sound next ∧ survey.right next place decl symbol
  keep : ∀ now name decl symbol, survey.Good now → grammar.basicTypes.lookup name = some decl →
    survey.right now (.basic name) decl symbol → now.workshop.basicTypes.lookup name = none →
    survey.Leads now []
      { now.workshop with basicTypes := (name, symbol) :: now.workshop.basicTypes } survey.sound

namespace Lawful

variable {survey : Survey grammar tale Note} (laws : survey.Lawful)
include laws

theorem after {now between last : Moment Note} {authored : List Authored}
    (first : survey.later now authored between) (second : survey.later between [] last) :
    survey.later now authored last := by
  have whole := laws.trans first second
  rw [List.append_nil] at whole
  exact whole

theorem good_later {now last : Moment Note} {authored : List Authored} (good : survey.Good now)
    (later : survey.later now authored last) (sound : survey.sound last)
    (same : last.workshop.basicTypes = now.workshop.basicTypes) : survey.Good last := by
  refine ⟨sound, fun name symbol done => ?_⟩
  rw [same] at done
  obtain ⟨decl, found, right⟩ := good.finished name symbol done
  exact ⟨decl, found, laws.right_later later right⟩

theorem started {now : Moment Note} {place : Occurrence} {decl : TypeDecl}
    {inherited : Option TypeSymbol} (good : survey.Good now) (stands : survey.stands place decl)
    (base : Base grammar now.workshop place decl inherited) :
    let taken := takeMethods place.site inherited decl.methods now.workshop
    survey.Leads now (place.additions (place.authored decl.methods decl.basicTypeRef)) taken.2
      fun next => survey.Good next ∧ survey.begun next place decl inherited taken.1 := by
  have equips := equips_takeMethods place.site inherited decl.methods now.workshop
  obtain ⟨note, later, sound, begun⟩ := laws.equip now place decl inherited _ good stands base equips
  exact ⟨note, later, laws.good_later good later sound equips.basicTypes, begun⟩

theorem completed {now : Moment Note} {place : Occurrence} {decl : TypeDecl}
    {inherited : Option TypeSymbol} {table : Option (Shared MethodTable)}
    {fields : Option (List (String × TypeSymbol))} (good : survey.Good now)
    (stands : survey.stands place decl) (begun : survey.begun now place decl inherited table)
    (composes : Composes (fun key => survey.right now (place.below [key])) (inherited.bind (·.fields))
      decl.fields fields)
    (told : .made decl inherited
      ⟨now.workshop.fresh, decl.about, table, fields, decl.basicTypeRef⟩ ∈ tale) :
    survey.Leads now [] { now.workshop with fresh := now.workshop.fresh + 1 } fun next =>
      survey.Good next ∧ survey.right next place decl
        ⟨now.workshop.fresh, decl.about, table, fields, decl.basicTypeRef⟩ := by
  obtain ⟨note, later, sound, right⟩ :=
    laws.finish now place decl inherited table fields good stands begun composes told
  exact ⟨note, later, laws.good_later good later sound rfl, right⟩

theorem stored {now : Moment Note} {name : String} {decl : TypeDecl} {symbol : TypeSymbol}
    (good : survey.Good now) (found : grammar.basicTypes.lookup name = some decl)
    (right : survey.right now (.basic name) decl symbol)
    (missing : now.workshop.basicTypes.lookup name = none) :
    survey.Leads now []
      { now.workshop with basicTypes := (name, symbol) :: now.workshop.basicTypes } survey.Good := by
  obtain ⟨note, later, sound⟩ := laws.keep now name decl symbol good found right missing
  refine ⟨note, later, sound, fun other had done => ?_⟩
  rw [Keyed.lookup_cons] at done
  split at done
  · rename_i same
    cases done
    exact ⟨decl, same ▸ found, laws.right_later later (same ▸ right)⟩
  · obtain ⟨origin, known, before⟩ := good.finished other had done
    exact ⟨origin, known, laws.right_later later before⟩

end Lawful

variable {survey : Survey grammar tale Note}

mutual

/-- A basic type is not had only if it cannot be had: all that is under way leads to it. -/
theorem Lawful.asks (laws : survey.Lawful) : ∀ {now later : Progress} {name : String}
    {deeds : List Deed} {answer : Option TypeSymbol},
    Asks grammar.basicTypes now name deeds answer later → deeds ⊆ tale →
    grammar.Awaits now.underWay name → ∀ note, survey.Good ⟨note, now.workshop⟩ →
      survey.Leads ⟨note, now.workshop⟩ [] later.workshop fun next =>
        survey.Good next ∧ (answer = none → grammar.Unobtainable name)
  | _, _, _, _, _, .kept _, _, _, note, good => ⟨note, laws.refl _, good, nofun⟩
  | _, _, _, _, _, .unknown _ absent, _, _, note, good => ⟨note, laws.refl _, good, fun _ => .inl absent⟩
  | _, _, _, _, _, .circular _ _ busy, _, leads, note, good =>
    ⟨note, laws.refl _, good, fun _ => .inr (leads _ busy)⟩
  | _, _, _, _, _, @Asks.compiled _ _ _ name decl _ _ missing found new compiles, told, leads, note,
      good => by
    obtain ⟨between, first, next, right⟩ := laws.compiles compiles (.basic name) rfl
      (laws.passes.basic name decl found)
      (fun _ member => told (List.mem_cons_of_mem _ (List.mem_append_left _ member)))
      (fun target named => leads.onward ⟨decl, found, named⟩) note good
    -- What is under way is left to itself, so nothing was kept under the name meanwhile.
    have unfinished := (compiles.orderly.spared name (Finset.mem_insert_self _ _)).trans missing
    obtain ⟨last, second, final⟩ := laws.stored next found right unfinished
    exact ⟨last, laws.after first second, final, nofun⟩

theorem Lawful.draws (laws : survey.Lawful) : ∀ {now later : Progress} {site : Site}
    {reference : Option String} {deeds : List Deed} {inherited : Option TypeSymbol},
    Draws grammar.basicTypes now site reference deeds inherited later →
    ∀ (place : Occurrence) (decl : TypeDecl), site = place.site → decl.basicTypeRef = reference →
    survey.stands place decl → deeds ⊆ tale →
    (∀ name ∈ reference.toList, grammar.Awaits now.underWay name) →
    ∀ note, survey.Good ⟨note, now.workshop⟩ →
      survey.Leads ⟨note, now.workshop⟩ [] later.workshop fun next =>
        survey.Good next ∧ Base grammar later.workshop place decl inherited
  | _, _, _, _, _, _, .nothing, _, _, _, bare, _, _, _, note, good =>
    ⟨note, laws.refl _, good, .unnamed bare⟩
  | _, _, _, _, _, _, .drawn asks, _, _, _, named, _, told, leads, note, good => by
    obtain ⟨next, first, fine, _⟩ :=
      laws.asks asks told (leads _ (List.mem_singleton_self _)) note good
    exact ⟨next, first, fine, .finished named (asks.finished _ rfl)⟩
  | _, _, _, _, _, _, .lost asks, place, decl, same, named, stands, told, leads, note, good => by
    obtain ⟨between, first, next, lost⟩ :=
      laws.asks asks told (leads _ (List.mem_singleton_self _)) note good
    obtain ⟨last, second, sound⟩ := laws.lose _ place decl _ next stands named (lost rfl)
    rw [same]
    refine ⟨last, laws.after first second, laws.good_later next second sound rfl, ?_⟩
    exact .lost named (lost rfl) (List.mem_append_right _ (List.mem_singleton_self _))

theorem Lawful.compiles (laws : survey.Lawful) : ∀ {now later : Progress} {site : Site}
    {decl : TypeDecl} {deeds : List Deed} {symbol : TypeSymbol},
    Compiles grammar.basicTypes now site decl deeds symbol later →
    ∀ place : Occurrence, site = place.site → survey.stands place decl → deeds ⊆ tale →
    (∀ name ∈ decl.references, grammar.Awaits now.underWay name) →
    ∀ note, survey.Good ⟨note, now.workshop⟩ →
      survey.Leads ⟨note, now.workshop⟩ (place.additions (decl.authored place)) later.workshop
        fun next => survey.Good next ∧ survey.right next place decl symbol
  | _, _, _, _, _, _, .bare draws object, place, same, stands, told, leads, note, good => by
    obtain ⟨drawn, made⟩ := List.append_subset.mp told
    obtain ⟨between, first, next, base⟩ := laws.draws draws place _ same rfl stands drawn leads note good
    subst same object
    obtain ⟨among, second, equipped, begun⟩ := laws.started next stands base
    obtain ⟨last, third, final, right⟩ :=
      laws.completed equipped stands begun .bare (made (List.mem_singleton_self _))
    exact ⟨last, laws.trans first (laws.after second third), final, right⟩
  | _, _, _, _, _, _, @Compiles.composed _ _ between _ _ _ _ _ own _ _ _ _ _ draws below object, place, same,
      stands, told, leads, note, good => by
    obtain ⟨drawn, others⟩ := List.append_subset.mp told
    obtain ⟨within, made⟩ := List.append_subset.mp others
    obtain ⟨drew, first, next, base⟩ := laws.draws draws place _ same rfl stands drawn
      (fun name member => leads name (List.mem_append_left _ member)) note good
    have started := laws.started next stands base
    rw [← same] at started
    obtain ⟨among, second, equipped, begun⟩ := started
    -- Drawing the basic type has restored what is under way.
    have onward : ∀ name ∈ fieldReferences own, grammar.Awaits between.underWay name := by
      rw [draws.orderly.restored]
      exact fun name member => leads name (List.mem_append_right _ member)
    obtain ⟨after, third, inside, symbols, merged, each⟩ := laws.compilesFields below place same
      (laws.passes.field place _ _ stands rfl) within onward among equipped
    subst same object merged
    obtain ⟨last, fourth, final, right⟩ := laws.completed inside stands (laws.begun_later third begun)
      (.merged each) (made (List.mem_singleton_self _))
    refine ⟨last, ?_, final, right⟩
    rw [TypeDecl.authored, Occurrence.additions_append]
    exact laws.trans (laws.trans first second) (laws.after third fourth)

theorem Lawful.compilesFields (laws : survey.Lawful) : ∀ {now later : Progress} {site : Site}
    {own : List (String × TypeDecl)} {start all : List (String × TypeSymbol)} {deeds : List Deed},
    CompilesFields grammar.basicTypes now site own start deeds all later →
    ∀ place : Occurrence, site = place.site →
    (∀ entry ∈ own, survey.stands (place.below [entry.1]) entry.2) → deeds ⊆ tale →
    (∀ name ∈ fieldReferences own, grammar.Awaits now.underWay name) →
    ∀ note, survey.Good ⟨note, now.workshop⟩ →
      survey.Leads ⟨note, now.workshop⟩ (place.additions (fieldsAuthored place own)) later.workshop
        fun next => survey.Good next ∧ ∃ symbols, all = Keyed.merge start symbols ∧
          Each (fun key => survey.right next (place.below [key])) symbols own
  | _, _, _, _, _, _, _, .nil, place, _, _, _, _, note, good => by
    refine ⟨note, ?_, good, [], rfl, .nil⟩
    rw [fieldsAuthored, Occurrence.additions_nil]
    exact laws.refl _
  | _, _, _, _, _, _, _, @CompilesFields.cons _ _ between _ _ key _ rest _ _ _ _ symbol compiles
      below, place, same, stands, told, leads, note, good => by
    obtain ⟨here, others⟩ := List.append_subset.mp told
    obtain ⟨stood, remaining⟩ := List.forall_mem_cons.mp stands
    obtain ⟨among, first, next, right⟩ := laws.compiles compiles (place.below [key])
      (by rw [place.site_below, same]) stood here
      (fun name member => leads name (List.mem_append_left _ member)) note good
    have onward : ∀ name ∈ fieldReferences rest, grammar.Awaits between.underWay name := by
      rw [compiles.orderly.restored]
      exact fun name member => leads name (List.mem_append_right _ member)
    obtain ⟨last, second, final, symbols, merged, each⟩ :=
      laws.compilesFields below place same remaining others onward among next
    refine ⟨last, ?_, final, (key, symbol) :: symbols, merged, ?_⟩
    · rw [fieldsAuthored, Occurrence.additions_append]
      exact laws.trans first second
    · exact .cons ⟨rfl, laws.right_later second right⟩ each

end

theorem Lawful.roots (laws : survey.Lawful) {now later : Progress} {roots : List (String × TypeDecl)}
    {deeds : List Deed} {symbols : List (String × TypeSymbol)}
    (compiles : CompilesRoots grammar.basicTypes now roots deeds symbols later)
    (idle : now.underWay = ∅) (stands : ∀ entry ∈ roots, survey.stands (.root entry.1) entry.2)
    (told : deeds ⊆ tale) (note : Note) (good : survey.Good ⟨note, now.workshop⟩) :
    survey.Leads ⟨note, now.workshop⟩
      (roots.flatMap fun entry => entry.2.authored (.root entry.1)) later.workshop fun next =>
        survey.Good next ∧ Each (fun name => survey.right next (.root name)) symbols roots := by
  induction compiles generalizing note with
  | nil => exact ⟨note, laws.refl _, good, .nil⟩
  | @cons _ _ _ name _ _ _ _ _ _ compiles _ ih =>
    obtain ⟨here, others⟩ := List.append_subset.mp told
    obtain ⟨stood, rest⟩ := List.forall_mem_cons.mp stands
    obtain ⟨between, first, next, right⟩ :=
      laws.compiles compiles (.root name) rfl stood here (by simp [Grammar.Awaits, idle]) note good
    obtain ⟨last, second, final, each⟩ :=
      ih (compiles.orderly.restored.trans idle) rest others between next
    exact ⟨last, laws.trans first second, final, .cons ⟨rfl, laws.right_later second right⟩ each⟩

/-- What each step keeps to holds of a whole compilation, if it is so once the tables that are made in
advance are there. -/
theorem Lawful.run (laws : survey.Lawful)
    (compiles : CompilesRoots grammar.basicTypes ⟨∅, prepareAll grammar.basicTypes empty⟩ grammar.types
      tale (run grammar).1 ⟨∅, (run grammar).2⟩)
    (note : Note) (sound : survey.sound ⟨note, prepareAll grammar.basicTypes empty⟩) :
    survey.Leads ⟨note, prepareAll grammar.basicTypes empty⟩ grammar.rootAuthored (run grammar).2
      fun last => survey.Good last ∧
        Each (fun name => survey.right last (.root name)) (run grammar).1 grammar.types := by
  refine laws.roots compiles rfl laws.passes.root (fun _ => id) note ⟨sound, fun name symbol done => ?_⟩
  rw [basicTypes_prepareAll] at done
  cases done

end Survey

end Workshop

end RulesAssist
