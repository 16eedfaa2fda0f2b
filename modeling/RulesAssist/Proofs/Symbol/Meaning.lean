import RulesAssist.Proofs.Symbol.Survey

/-! Compiled types show their declarations.

A basic type that was compiled shows its declaration, and a table that was made in advance holds the methods
that are authored at a place of its path. Paths of plain parts tell which place that is.
-/

set_option autoImplicit false

namespace RulesAssist

variable {grammar : Grammar}

theorem ShowsAll.merge {start symbols : List (String × TypeSymbol)} {fields own : List (String × TypeDecl)}
    (shows : ShowsAll grammar start fields)
    (each : Each (fun _ decl symbol => Shows grammar symbol decl) symbols own) :
    ShowsAll grammar (Keyed.merge start symbols) (Keyed.merge fields own) := by
  induction each generalizing start fields with
  | nil => exact shows
  | @cons symbol decl _ _ held _ ih =>
    obtain ⟨key, symbol⟩ := symbol
    obtain ⟨_, decl⟩ := decl
    obtain ⟨rfl, shown⟩ := held
    exact ih (shows.insert shown key)

theorem Each.shows {symbols : List (String × TypeSymbol)} {decls : List (String × TypeDecl)}
    (each : Each (fun _ decl symbol => Shows grammar symbol decl) symbols decls) :
    ShowsAll grammar symbols decls := by
  induction each with
  | nil => exact .nil
  | @cons symbol decl _ _ held _ ih =>
    obtain ⟨key, symbol⟩ := symbol
    obtain ⟨_, decl⟩ := decl
    obtain ⟨rfl, shown⟩ := held
    exact .cons shown ih

theorem Composes.shows {inherited fields : Option (List (String × TypeSymbol))}
    {start own : Option (List (String × TypeDecl))}
    (composes : Composes (fun _ decl symbol => Shows grammar symbol decl) inherited own fields)
    (shows : Option.Rel (ShowsAll grammar) inherited start) :
    Option.Rel (ShowsAll grammar) fields (Grammar.overlay start own) := by
  cases composes with
  | bare => exact shows
  | merged each =>
    refine .some (ShowsAll.merge ?_ each)
    cases shows with
    | none => exact .nil
    | some all => exact all

/-- The methods and fields that a declaration starts from. -/
inductive Starts (grammar : Grammar) (decl : TypeDecl) :
    Option (List (String × MethodDecl)) → Option (List (String × TypeDecl)) → Prop where
  | alone : grammar.basicOf decl = none → Starts grammar decl decl.methods none
  | inherited {basic : TypeDecl} {methods : Option (List (String × MethodDecl))}
      {fields : Option (List (String × TypeDecl))} :
      grammar.basicOf decl = some basic → grammar.Members basic methods fields →
      Starts grammar decl methods fields

theorem Starts.members {decl : TypeDecl} {methods : Option (List (String × MethodDecl))}
    {fields : Option (List (String × TypeDecl))} (starts : Starts grammar decl methods fields)
    (distinct : ∀ own, decl.fields = some own → (Keyed.keys own).Nodup) :
    grammar.Members decl methods (Grammar.overlay fields decl.fields) := by
  cases starts with
  | inherited basic members => exact .inherited basic members
  | alone missing =>
    have same : Grammar.overlay none decl.fields = decl.fields := by
      cases own : decl.fields with
      | none => rfl
      | some fields =>
        -- Fields are merged one by one also where there is nothing to inherit.
        have merged : Keyed.merge [] fields = [] ++ fields := Keyed.merge_of_new (distinct fields own)
        exact congrArg some merged
    rw [same]
    exact .own missing

namespace Workshop

open Course

def Stocked (grammar : Grammar) (prepared : List (String × Shared MethodTable)) : Prop :=
  ∀ path table, prepared.lookup path = some table → ∃ entry ∈ grammar.basicAuthored,
    entry.1.path = path ∧ contentsOf table.content = infosOf entry.2

theorem stocked_prepareAll (grammar : Grammar) :
    Stocked grammar (prepareAll grammar.basicTypes empty).prepared := by
  obtain ⟨annals, stored⟩ := exists_stored grammar
  intro path table found
  obtain ⟨entry, authored, here, _, contents⟩ := stored.exists_of_lookup found
  exact ⟨entry, authored, here, contents⟩

def showing (grammar : Grammar) (tale : List Deed) : Survey grammar tale Unit where
  stands place decl := grammar.declared? place = some decl
  sound now := Stocked grammar now.workshop.prepared
  later _ _ _ := True
  begun _ _ decl inherited table := ∃ methods fields, Starts grammar decl methods fields ∧
    Option.Rel (ShowsAll grammar) (inherited.bind (·.fields)) fields ∧
    table.map (fun table => contentsOf table.content) = methods.map infosOf
  right _ _ decl symbol := Shows grammar symbol decl

variable {workshop : Workshop} {place : Occurrence} {decl : TypeDecl}
  {taken : Option (Shared MethodTable) × Workshop}

theorem Equips.contents {methods : Option (List (String × MethodDecl))}
    (equips : Equips place.site workshop none methods taken) (distinct : grammar.Distinct)
    (undotted : grammar.Undotted) (declared : grammar.declared? place = some decl)
    (own : decl.methods = methods) (stocked : Stocked grammar workshop.prepared) :
    taken.2.prepared = workshop.prepared ∧
      taken.1.map (fun table => contentsOf table.content) = methods.map infosOf := by
  cases equips with
  | bare => exact ⟨rfl, rfl⟩
  | made _ =>
    exact ⟨(adds_makeTable _ workshop).prepared, congrArg some (contents_makeTable _ workshop)⟩
  | stocked inside found =>
    obtain ⟨entry, authored, path, contents⟩ := stocked _ _ found
    obtain ⟨within, other, known, _, theirs⟩ := Grammar.declared_of_basicAuthored distinct authored
    have same := (Grammar.undotted_of_declared known undotted).path_inj
      (Grammar.undotted_of_declared declared undotted) (within.trans inside.symm) path
    rw [same, declared, Option.some.injEq] at known
    subst known
    rw [own, Option.some.injEq] at theirs
    exact ⟨rfl, congrArg some (theirs ▸ contents)⟩

theorem Equips.contents_of_basic {basic : TypeSymbol} {origin : TypeDecl} {name : String}
    {methods : Option (List (String × MethodDecl))}
    (equips : Equips place.site workshop (some basic) methods taken) (shown : Shows grammar basic origin)
    (named : decl.basicTypeRef = some name) (found : grammar.basicTypes.lookup name = some origin) :
    taken.2.prepared = workshop.prepared ∧ ∃ methods fields, Starts grammar decl methods fields ∧
      Option.Rel (ShowsAll grammar) basic.fields fields ∧
      taken.1.map (fun table => contentsOf table.content) = methods.map infosOf := by
  have same : grammar.basicOf decl = some origin := by
    rw [Grammar.basicOf, named, Option.bind_some, found]
  have kept : taken.2.prepared = workshop.prepared ∧ taken.1 = basic.methods := by
    cases equips <;> exact ⟨rfl, rfl⟩
  obtain ⟨prepared, shared⟩ := kept
  rw [shared]
  cases shown with
  | bare members methods => exact ⟨prepared, _, none, .inherited same members, .none, methods⟩
  | composed members methods all => exact ⟨prepared, _, _, .inherited same members, .some all, methods⟩

theorem shows_of_members {methods : Option (List (String × MethodDecl))}
    {fields : Option (List (String × TypeDecl))} {table : Option (Shared MethodTable)}
    {symbols : Option (List (String × TypeSymbol))} (members : grammar.Members decl methods fields)
    (same : table.map (fun table => contentsOf table.content) = methods.map infosOf)
    (shows : Option.Rel (ShowsAll grammar) symbols fields) (identity : Nat) :
    Shows grammar ⟨identity, decl.about, table, symbols, decl.basicTypeRef⟩ decl := by
  cases shows with
  | none => exact .bare members same
  | some all => exact .composed members same all

theorem showing_lawful (distinct : grammar.Distinct) (undotted : grammar.Undotted)
    (acyclic : grammar.Acyclic) (tale : List Deed) : (showing grammar tale).Lawful where
  passes := Grammar.passes_declared distinct
  refl _ := trivial
  trans _ _ := trivial
  begun_later _ begun := begun
  right_later _ shows := shows
  lose _ _ _ _ good _ _ _ := ⟨(), trivial, good.sound⟩
  equip := by
    intro now place decl inherited taken good declared base equips
    have stocked : Stocked grammar now.workshop.prepared := good.sound
    cases inherited with
    | none =>
      obtain ⟨kept, contents⟩ := equips.contents distinct undotted declared rfl stocked
      exact ⟨(), trivial, (congrArg (Stocked grammar) kept).mpr stocked, decl.methods, none,
        .alone (base.basicOf_eq_none acyclic), .none, contents⟩
    | some basic =>
      obtain ⟨name, origin, named, found, shown⟩ := good.inherited base
      obtain ⟨kept, starts⟩ := equips.contents_of_basic shown named found
      exact ⟨(), trivial, (congrArg (Stocked grammar) kept).mpr stocked, starts⟩
  finish := by
    intro now place decl inherited table fields good declared begun composes _ _
    obtain ⟨methods, start, starts, shown, same⟩ := begun
    have unique := TypeDecl.throughout_iff.mp (Grammar.distinct_of_declared declared distinct)
    have members := starts.members fun own had => (unique own had).1
    exact ⟨(), trivial, good.sound, shows_of_members members same (composes.shows shown) _⟩
  keep _ _ _ _ good _ _ _ := ⟨(), trivial, good.sound⟩

/-- The compiled roots of a grammar show its types. -/
theorem shows_run (distinct : grammar.Distinct) (undotted : grammar.Undotted)
    (acyclic : grammar.Acyclic) : ShowsAll grammar (run grammar).1 grammar.types := by
  obtain ⟨deeds, compiles⟩ := exists_run grammar
  obtain ⟨_, _, _, each⟩ :=
    (showing_lawful distinct undotted acyclic deeds).run compiles () (stocked_prepareAll grammar)
  exact Each.shows each

end Workshop

end RulesAssist
