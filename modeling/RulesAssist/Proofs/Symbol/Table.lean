import RulesAssist.Proofs.Symbol.Meaning
import RulesAssist.Proofs.Symbol.Tidy

/-! The table answers as the declarations do.

The compiled roots show the declared types, and registering them keeps what they show: a path finds a
type that shows the declaration at that path, and a name finds one that shows the last declaration of
that name.
-/

set_option autoImplicit false

namespace RulesAssist

variable {grammar : Grammar}

theorem reach?_of_rel {keys : List String}
    (below : ∀ symbol decl, Shows grammar symbol decl → ∃ answer : Option TypeDecl,
      (∀ last, answer = some last ↔ grammar.Reaches decl keys last) ∧
        Option.Rel (Shows grammar) (symbol.reach? keys) answer)
    {symbol : Option TypeSymbol} {decl : Option TypeDecl}
    (shown : Option.Rel (Shows grammar) symbol decl) :
    ∃ answer : Option TypeDecl,
      (∀ last, answer = some last ↔ ∃ first, decl = some first ∧ grammar.Reaches first keys last) ∧
        Option.Rel (Shows grammar) (symbol.bind (TypeSymbol.reach? keys)) answer := by
  cases shown with
  | none => exact ⟨none, by simp, .none⟩
  | some shows =>
    obtain ⟨answer, exactly, related⟩ := below _ _ shows
    exact ⟨answer, by simp [exactly], related⟩

theorem Shows.reach? (keys : List String) : ∀ (symbol : TypeSymbol) (decl : TypeDecl),
    Shows grammar symbol decl → ∃ answer : Option TypeDecl,
      (∀ last, answer = some last ↔ grammar.Reaches decl keys last) ∧
        Option.Rel (Shows grammar) (symbol.reach? keys) answer := by
  induction keys with
  | nil =>
    intro symbol decl shows
    refine ⟨some decl, ?_, .some shows⟩
    intro last
    constructor
    · rintro ⟨⟩
      exact .here
    · rintro ⟨⟩
      rfl
  | cons key rest ih =>
    intro symbol decl shows
    cases shows with
    | bare members _ =>
      refine ⟨none, ?_, .none⟩
      intro last
      exact iff_of_false nofun (Grammar.not_reaches_cons members)
    | composed members _ all =>
      obtain ⟨answer, exactly, related⟩ := reach?_of_rel ih (all.lookup key)
      refine ⟨answer, ?_, related⟩
      intro last
      rw [exactly, Grammar.reaches_cons_iff members]

theorem describes_of_rel {symbol : Option TypeSymbol} {decl : Option TypeDecl}
    (shown : Option.Rel (Shows grammar) symbol decl) :
    Option.Rel (TypeSymbol.Describes grammar) symbol decl := by
  cases shown with
  | none => exact .none
  | some shows => exact .some shows.describes

/-- Names without dots find types that show the declarations that were listed last. -/
def Agree (grammar : Grammar) (registrations : List (String × TypeSymbol))
    (nodes : List (String × TypeDecl)) : Prop :=
  ∀ name, Plain name →
    Option.Rel (Shows grammar) (Keyed.last? registrations name) (Keyed.last? nodes name)

theorem rel_or {symbol other : Option TypeSymbol} {decl another : Option TypeDecl}
    (first : Option.Rel (Shows grammar) symbol decl)
    (second : Option.Rel (Shows grammar) other another) :
    Option.Rel (Shows grammar) (symbol.or other) (decl.or another) := by
  cases first with
  | none => exact second
  | some shows => exact .some shows

namespace Agree

variable {registrations : List (String × TypeSymbol)} {nodes : List (String × TypeDecl)}

theorem append {others : List (String × TypeSymbol)} {rest : List (String × TypeDecl)}
    (agree : Agree grammar registrations nodes) (after : Agree grammar others rest) :
    Agree grammar (registrations ++ others) (nodes ++ rest) := by
  intro name plain
  rw [Keyed.last?_append, Keyed.last?_append]
  exact rel_or (after name plain) (agree name plain)

theorem cons {symbol : TypeSymbol} {decl : TypeDecl} {name path : String}
    (agree : Agree grammar registrations nodes) (shown : Shows grammar symbol decl)
    (dots : path = name ∨ ¬ Plain path) :
    Agree grammar ((name, symbol) :: (path, symbol) :: registrations) ((name, decl) :: nodes) := by
  intro wanted plain
  have listed : Option.Rel (Shows grammar) (if wanted == name then some symbol else none)
      (if wanted == name then some decl else none) := by
    cases wanted == name with
    | true => exact .some shown
    | false => exact .none
  rw [Keyed.last?_cons, Keyed.last?_cons, Keyed.last?_cons, Option.or_assoc]
  apply rel_or (agree wanted plain)
  rcases dots with rfl | dots
  · cases wanted == path with
    | true => exact .some shown
    | false => exact .none
  · have apart : wanted ≠ path := by
      rintro rfl
      exact dots plain
    rw [beq_false_of_ne apart, if_neg Bool.false_ne_true, Option.none_or]
    exact listed

end Agree

mutual

theorem Shows.lists {symbol : TypeSymbol} {decl : TypeDecl} :
    Shows grammar symbol decl → ∀ name path, (path = name ∨ ¬ Plain path) →
      ∃ nodes, grammar.Lists name decl nodes ∧ Agree grammar (symbol.registrations name path) nodes
  | .bare members same, name, path, dots =>
    ⟨_, .bare members, @Agree.cons grammar [] [] _ _ name path (fun _ _ => .none) (.bare members same) dots⟩
  | .composed members same all, name, path, dots => by
    obtain ⟨nodes, lists, agree⟩ := all.lists path
    exact ⟨_, .composed members lists, agree.cons (.composed members same all) dots⟩

theorem ShowsAll.lists {symbols : List (String × TypeSymbol)} {fields : List (String × TypeDecl)} :
    ShowsAll grammar symbols fields → ∀ path, ∃ nodes, grammar.ListsAll fields nodes ∧
      Agree grammar (TypeSymbol.fieldRegistrations path symbols) nodes
  | .nil, _ => ⟨[], .nil, fun _ _ => .none⟩
  | .cons first others, path => by
    obtain ⟨nodes, lists, agree⟩ := first.lists _ (dotted path _)
      (.inr (not_plain_pathOf path (List.cons_ne_nil _ [])))
    obtain ⟨rest, listed, after⟩ := others.lists path
    exact ⟨_, .cons lists listed, agree.append after⟩

end

theorem ShowsAll.listsRoots {roots : List (String × TypeSymbol)} {types : List (String × TypeDecl)}
    (shows : ShowsAll grammar roots types) : ∃ nodes, grammar.ListsAll types nodes ∧
      Agree grammar (SymbolTable.registrationsOf roots) nodes := by
  induction types generalizing roots with
  | nil =>
    cases shows
    exact ⟨[], .nil, fun _ _ => .none⟩
  | cons entry rest ih =>
    cases shows with
    | @cons name _ _ _ _ first others =>
      obtain ⟨nodes, lists, agree⟩ := first.lists name name (.inl rfl)
      obtain ⟨more, listed, after⟩ := ih others
      exact ⟨_, .cons lists listed, agree.append after⟩

namespace SymbolTable

/-- A compiled table answers for every name as the declarations do. -/
theorem compile_means (distinct : grammar.Distinct) (undotted : grammar.Undotted)
    (acyclic : grammar.Acyclic) (name : String) :
    ∃ answer, grammar.Means name answer ∧ (∀ other, grammar.Means name other → other = answer) ∧
      Option.Rel (TypeSymbol.Describes grammar) ((compile grammar).type? name) answer := by
  have shows := Workshop.shows_run distinct undotted acyclic
  suffices found : ∃ answer, grammar.Means name answer ∧
      Option.Rel (Shows grammar) ((compile grammar).type? name) answer by
    obtain ⟨answer, means, related⟩ := found
    exact ⟨answer, means, fun other stands => stands.unique means, describes_of_rel related⟩
  obtain ⟨root, keys, rooted, plain, same⟩ := exists_pathOf name
  subst same
  by_cases bare : keys = []
  · -- Roots and fields give their short names out in the order of the listing.
    subst bare
    obtain ⟨nodes, lists, agree⟩ := shows.listsRoots
    rw [type?_compile]
    exact ⟨_, .listed rooted lists, agree root rooted⟩
  · obtain ⟨answer, exactly, related⟩ := reach?_of_rel (Shows.reach? keys) (shows.lookup root)
    refine ⟨answer, .located rooted plain bare exactly, ?_⟩
    rw [type?_of_keys distinct undotted rooted plain bare]
    exact related

/-- A field whose basic type has a basic type itself; all three have a field of one key. -/
def inheriting : Grammar where
  accessModifiers := []
  basicTypes :=
    [("document", ⟨"D",
        some [("get", ⟨"reads", some ["path", "mode"], some "Data"⟩), ("size", ⟨"counts", none, some "Integer"⟩)],
        some [("id", ⟨"first", none, none, none⟩), ("data", ⟨"kept", none, none, none⟩)], none⟩),
      ("record", ⟨"R", none, some [("id", ⟨"second", none, none, none⟩)], some "document"⟩)]
  types :=
    [("service", ⟨"S", none,
        some [("resource", ⟨"X", none,
          some [("id", ⟨"third", none, none, some "document"⟩), ("new", ⟨"own", none, none, none⟩)],
          some "record"⟩)],
        none⟩)]

theorem inheriting_distinct : inheriting.Distinct where
  basicTypes := by decide
  types := by decide
  basicFields := by simp [inheriting, TypeDecl.Throughout, fieldsThroughout, Keyed.keys]
  fields := by simp [inheriting, TypeDecl.Throughout, fieldsThroughout, Keyed.keys]

theorem inheriting_undotted : inheriting.Undotted where
  basicTypes := by simp [inheriting, Plain]
  types := by simp [inheriting, Plain]
  basicFields := by
    simp only [inheriting, List.forall_mem_cons, TypeDecl.Throughout, fieldsThroughout, Plain]
    simp
  fields := by
    simp only [inheriting, List.forall_mem_cons, TypeDecl.Throughout, fieldsThroughout, Plain]
    simp

theorem inheriting_acyclic : inheriting.Acyclic := by
  apply Grammar.acyclic_of_rank (fun name => if name = "record" then 1 else 0)
  rintro name target ⟨decl, found, named⟩
  replace found := Keyed.mem_of_lookup found
  simp only [inheriting, List.mem_cons, List.not_mem_nil, Prod.mk.injEq, or_false] at found
  obtain ⟨rfl, rfl⟩ | ⟨rfl, rfl⟩ := found
  · simp [TypeDecl.references, fieldReferences] at named
  · have basic : target = "document" := by simpa [TypeDecl.references, fieldReferences] using named
    simp [basic]

/-- The methods come from the basic type of the basic type, and so do the first two keys. -/
theorem compile_means_inherited :
    inheriting.Distinct ∧ inheriting.Undotted ∧ inheriting.Acyclic ∧
      ∃ symbol table, (compile inheriting).type? "service.resource" = some symbol ∧
        symbol.about = "X" ∧ symbol.basicTypeRef = some "record" ∧ symbol.methods = some table ∧
        contentsOf table.content =
          [("get", ⟨"reads", some ["path", "mode"], some "Data",
            some "get($\x7b1:path\x7d, $\x7b2:mode\x7d)$0"⟩),
            ("size", ⟨"counts", none, some "Integer", none⟩)] ∧
        symbol.fields.map Keyed.keys = some ["id", "data", "new"] := by
  obtain ⟨answer, -, unique, related⟩ :=
    compile_means inheriting_distinct inheriting_undotted inheriting_acyclic "service.resource"
  have locates : inheriting.Locates "service" ["resource"] ⟨"X", none, some [("id", ⟨"third", none, none,
      some "document"⟩), ("new", ⟨"own", none, none, none⟩)], some "record"⟩ :=
    ⟨_, rfl, .through (.own rfl) rfl .here⟩
  have means := locates.means (by simp [Plain]) (by simp [Plain]) (by simp)
  rw [← unique _ means] at related
  generalize found : (compile inheriting).type? "service.resource" = had at related
  cases related with
  | @some symbol _ describes =>
    obtain ⟨about, basic, methods, fields, members, tables, keys⟩ := describes
    obtain ⟨rfl, rfl⟩ := members.unique (.inherited rfl (.inherited rfl (.own rfl)))
    generalize taken : symbol.methods = had at tables
    cases tables with
    | @some table _ described =>
      refine ⟨inheriting_distinct, inheriting_undotted, inheriting_acyclic, symbol, table, rfl, about, basic,
        taken, ?_, keys⟩
      exact (MethodTable.describes_iff.mp described).trans (by decide)

end SymbolTable

end RulesAssist
