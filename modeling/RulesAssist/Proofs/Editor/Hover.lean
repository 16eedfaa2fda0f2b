import RulesAssist.Proofs.Coverage.Innermost
import RulesAssist.Proofs.Editor.Calls
import RulesAssist.Proofs.Text.Word

/-! What a hover shows, and where.

A hover is either the coverage entry at the position or what the grammar says about the word there. Both
kinds of range hold the position: the entry was chosen because it does, and a word is only found if the
column is inside it or right behind it.
-/

set_option autoImplicit false

namespace RulesAssist

/-- What is declared about a symbol, whichever kind it is of. -/
inductive Symbol.Tells : Symbol → String → Prop where
  | modifier (symbol : ModifierSymbol) : Tells (.modifier symbol) symbol.about
  | type (symbol : TypeSymbol) : Tells (.type symbol) symbol.about
  | method (symbol : Shared MethodInfo) : Tells (.method symbol) symbol.content.about

theorem Symbol.tells_about (symbol : Symbol) : symbol.Tells symbol.about := by
  cases symbol with
  | modifier symbol => exact .modifier symbol
  | type symbol => exact .type symbol
  | method symbol => exact .method symbol

namespace Editor

namespace Workspace

variable {workspace : Workspace} {world : World} {file line : String} {position : Position}
  {cancelled : Bool}

theorem contains_columns {columns : Text.Columns} (start : columns.start ≤ position.column)
    (stop : position.column ≤ columns.stop) :
    Span.contains ⟨⟨position.line, columns.start⟩, ⟨position.line, columns.stop⟩⟩ position =
      true := by
  rw [Span.contains_iff, Position.le_iff, Position.le_iff]
  exact ⟨.inr ⟨rfl, start⟩, .inr ⟨rfl, stop⟩⟩

theorem coverageAt_of_page {path : String} (page : workspace.coveragePage = some path) :
    (workspace.coverageAt world file position cancelled).1 =
      (((Coverage.Load.start file (FilePath.resolve world.directory path) cancelled).run
          ⟨world.refuses, world.read path⟩ workspace.store).1.map (·.content)).toOption.bind
        (Coverage.innermost · position) := by
  simp only [coverageAt, page]
  cases (Coverage.Load.run ..).1 <;> rfl

theorem coverageAt_of_parsed {path text : String} {entries : List Coverage.Entry}
    (page : workspace.coveragePage = some path)
    (missing : workspace.store.cache.listing? (FilePath.resolve world.directory path) = none)
    (read : world.read path = some text) (parsed : Coverage.Page.entries text file = .ok entries) :
    (workspace.coverageAt world file position false).1 = Coverage.innermost entries position := by
  obtain ⟨result, next, ran, found, _⟩ :=
    Coverage.Load.run_of_missing file false missing ⟨world.refuses, world.read path⟩
  rw [coverageAt_of_page page, ran, found]
  simp only [Coverage.Load.reading, Coverage.Load.start, read, parsed]
  rfl

theorem contains_of_coverageAt {entry : Coverage.Entry}
    (found : (workspace.coverageAt world file position cancelled).1 = some entry) :
    entry.span.contains position = true := by
  cases page : workspace.coveragePage with
  | none => simp [coverageAt, page] at found
  | some path =>
    rw [coverageAt_of_page page] at found
    obtain ⟨entries, _, chosen⟩ := Option.bind_eq_some_iff.mp found
    exact (Coverage.isInnermost_of_eq_some chosen).contains

theorem coverageAt_congr {other : Workspace} (store : other.store = workspace.store)
    (page : other.coveragePage = workspace.coveragePage) :
    (other.coverageAt world file position cancelled).1 =
      (workspace.coverageAt world file position cancelled).1 := by
  cases same : workspace.coveragePage with
  | none => simp [coverageAt, page, same]
  | some path => rw [coverageAt_of_page same, coverageAt_of_page (page.trans same), store]

theorem coveragePage_coverageAt :
    (workspace.coverageAt world file position cancelled).2.coveragePage = workspace.coveragePage := by
  unfold coverageAt
  split <;> rfl

theorem store_coverageAt {path : String} (page : workspace.coveragePage = some path) :
    (workspace.coverageAt world file position cancelled).2.store =
      ((Coverage.Load.start file (FilePath.resolve world.directory path) cancelled).run
        ⟨world.refuses, world.read path⟩ workspace.store).2 := by
  simp only [coverageAt, page]

theorem coverageAt_again (workspace : Workspace) (world : World) (file : String)
    (position : Position) (cancelled : Bool) :
    ((workspace.coverageAt world file position cancelled).2.coverageAt world file position
        cancelled).1 = (workspace.coverageAt world file position cancelled).1 := by
  cases page : workspace.coveragePage with
  | none => simp [coverageAt, page]
  | some path =>
    rw [coverageAt_of_page (coveragePage_coverageAt.trans page), coverageAt_of_page page,
      store_coverageAt page, Coverage.Load.run_again]

theorem coverageAt_hover (workspace : Workspace) (world : World) (file line : String)
    (position : Position) (cancelled : Bool) :
    ((workspace.hover world file line position cancelled).2.coverageAt world file position
        cancelled).1 = (workspace.coverageAt world file position cancelled).1 := by
  have again := coverageAt_again workspace world file position cancelled
  rcases hover_cases workspace world file line position cancelled with
    ⟨entry, _, covered⟩ | ⟨_, stopped | worded⟩
  · rw [covered, again]
  · rw [stopped, again]
  · rw [worded]
    rcases wordHover_cases (workspace.coverageAt world file position cancelled).2 world line
      position with missing | ⟨_, _, _, _, asked, _⟩
    · rw [missing, again]
    · -- A question asked of the desk leaves the pages and the settings alone.
      rw [asked, ← again]
      exact coverageAt_congr rfl rfl

theorem hover_of_coverageAt {entry : Coverage.Entry}
    (found : (workspace.coverageAt world file position cancelled).1 = some entry) :
    workspace.hover world file line position cancelled =
      (some (Hover.ofEntry entry), (workspace.coverageAt world file position cancelled).2) := by
  rcases hover_cases workspace world file line position cancelled with
    ⟨other, same, covered⟩ | ⟨missing, _⟩
  · rw [found, Option.some.injEq] at same
    rw [covered, same]
  · rw [found] at missing
    cases missing

theorem hover_of_uncovered (missing : (workspace.coverageAt world file position false).1 = none) :
    workspace.hover world file line position false =
      (workspace.coverageAt world file position false).2.wordHover world line position := by
  unfold hover
  generalize workspace.coverageAt world file position false = covered at missing
  obtain ⟨_, after⟩ := covered
  cases missing
  rfl

theorem wordHover_congr {other : Workspace} (same : other.desk = workspace.desk) :
    (other.wordHover world line position).1 = (workspace.wordHover world line position).1 := by
  unfold wordHover ask
  rw [same]
  split
  · rfl
  · split
    · rfl
    · dsimp only
      split <;> rfl

/-- A hover shows the coverage at the position, or else what is said about the word there. -/
theorem hover_eq_some {hover : Hover}
    (hovered : (workspace.hover world file line position cancelled).1 = some hover) :
    (∃ entry, (workspace.coverageAt world file position cancelled).1 = some entry ∧
      hover = Hover.ofEntry entry) ∨
    (workspace.coverageAt world file position cancelled).1 = none ∧
      ∃ columns word, Text.touching world.isWord line position.column = some columns ∧
        Text.wordIn line columns = some word ∧
        (workspace.desk.ask world.source (.documentation word)).1 = some hover.contents ∧
        hover.range = ⟨⟨position.line, columns.start⟩, ⟨position.line, columns.stop⟩⟩ ∧
        (workspace.hover world file line position cancelled).2.desk =
          (workspace.desk.ask world.source (.documentation word)).2.2 := by
  rcases hover_cases workspace world file line position cancelled with
    ⟨entry, found, covered⟩ | ⟨missing, stopped | worded⟩
  · rw [covered] at hovered
    cases hovered
    exact .inl ⟨entry, found, rfl⟩
  · rw [stopped] at hovered
    cases hovered
  · rw [worded] at hovered ⊢
    rcases wordHover_cases (workspace.coverageAt world file position cancelled).2 world line
      position with silent | ⟨columns, word, around, inside, asked, shown⟩
    · rw [silent] at hovered
      cases hovered
    · obtain ⟨answered, range⟩ := shown hover hovered
      rw [← desk_coverageAt workspace world file position cancelled, asked]
      exact .inr ⟨missing, columns, word, around, inside, answered, range, rfl⟩

/-- A hover holds the position. If coverage has an entry there, it shows the tallies of the entry at its
span; else it shows what is declared about the symbol that the table has for a word, at a run of word characters
that makes up exactly that word. It does not matter which characters make up words. Coverage, table and symbol
are the same if they are asked for before the hover or afterwards. -/
theorem hover_around_position (reached : Reached world.source workspace) {hover : Hover}
    (hovered : (workspace.hover world file line position cancelled).1 = some hover) :
    hover.range.contains position = true ∧
    ∀ asked, asked = workspace ∨
        asked = (workspace.hover world file line position cancelled).2 →
      (∀ entry, (asked.coverageAt world file position cancelled).1 = some entry →
        ∃ tallies, (asked.talliesAt world file position cancelled).1 = some tallies ∧
          hover = ⟨Coverage.phrases tallies, entry.span⟩) ∧
      ((asked.coverageAt world file position cancelled).1 = none →
        ∃ columns, ∃ word : String,
          Text.IsRun world.isWord line.toList columns word.toList ∧
          hover.range = ⟨⟨position.line, columns.start⟩, ⟨position.line, columns.stop⟩⟩ ∧
          ∃ (table : Compiled) (symbol : Symbol), (asked.ask world .table).1 = some table ∧
            table.content.find? word = some symbol ∧
            (asked.ask world (.symbol word)).1 = some symbol ∧ symbol.Tells hover.contents) := by
  have same : ∀ asked, asked = workspace ∨
      asked = (workspace.hover world file line position cancelled).2 →
      (asked.coverageAt world file position cancelled).1 =
        (workspace.coverageAt world file position cancelled).1 := by
    rintro asked (rfl | rfl)
    · rfl
    · exact coverageAt_hover ..
  rcases hover_eq_some hovered with ⟨entry, found, rfl⟩ |
    ⟨missing, columns, word, around, inside, answered, range, desk⟩
  · refine ⟨contains_of_coverageAt found, fun asked when => ⟨?_, ?_⟩⟩
    · intro other there
      refine ⟨other.tallies, by simp [talliesAt, there], ?_⟩
      rw [same asked when, found, Option.some.injEq] at there
      rw [there]
      rfl
    · intro missing
      rw [same asked when, found] at missing
      cases missing
  · obtain ⟨name, run, start, stop⟩ := Text.isRun_of_touching around
    rw [run.wordIn, Option.some.injEq] at inside
    subst inside
    obtain ⟨callers, agrees⟩ := reached.agrees
    obtain ⟨table, symbol, named, about, told⟩ := agrees.symbol_of_documentation answered
    refine ⟨range ▸ contains_columns start stop, fun asked when => ⟨?_, ?_⟩⟩
    · intro entry found
      rw [same asked when, missing] at found
      cases found
    · intro _
      have now : asked.desk = workspace.desk ∨
          asked.desk = (workspace.desk.ask world.source (.documentation name)).2.2 :=
        when.imp (congrArg Workspace.desk) fun after => (congrArg Workspace.desk after).trans desk
      obtain ⟨held, answer⟩ := told asked.desk now
      exact ⟨columns, name, run, range, table, symbol, held, named, answer, about ▸ symbol.tells_about⟩

def oneModifier : Source := fun _ =>
  { outcome := .ok { accessModifiers := [⟨"read", "Any read", none⟩], basicTypes := [], types := [] }
    withdraws := false }

/-- A page that reports on the file `a`, with two values that were observed at one region. -/
def observedPage : String :=
  Coverage.Marker.start.text ++
    "\x7b\"rules\":[[[\"a\"]]],\"report\":[[[1,1,0,3],[[\x7b\"boolValue\":true\x7d,2],[\x7b\x7d,1]]]]\x7d" ++
    Coverage.Marker.stop.text

def observedEntries : List Coverage.Entry :=
  [⟨⟨⟨0, 0⟩, ⟨0, 5⟩⟩, [⟨.literal .bool (.bool true), 2⟩, ⟨.shortCircuited, 1⟩]⟩]

set_option maxRecDepth 100000 in
theorem entries_observedPage : Coverage.Page.entries observedPage "a" = .ok observedEntries := by
  cbv

def observedWorld : World where
  source := oneModifier
  files := FileTree.empty.write [.root, .name "page"] (some observedPage)
  directory := []

def observing : Workspace :=
  (Workspace.empty.perform observedWorld (.configure { coverageFile := some "/page" })).perform observedWorld
    (.openAt "/")

theorem coverageAt_observing (position : Position) :
    (observing.coverageAt observedWorld "a" position false).1 =
      Coverage.innermost observedEntries position :=
  coverageAt_of_parsed rfl rfl rfl entries_observedPage

/-- The column just past a word shows the word, and a column that was observed shows what was observed
there although a word stands there too. -/
theorem hover_around_position_both :
    Reached oneModifier observing ∧
      (∃ (hover : Hover) (table : Compiled) (modifier : ModifierSymbol),
        (observing.hover observedWorld "a" "allow read" ⟨0, 10⟩ false).1 = some hover ∧
        hover.range.contains ⟨0, 10⟩ = true ∧ hover.range = ⟨⟨0, 6⟩, ⟨0, 10⟩⟩ ∧
        (observing.ask observedWorld .table).1 = some table ∧
        table.content.find? "read" = some (.modifier modifier) ∧
        hover.contents = modifier.about ∧ hover.contents = "Any read") ∧
      ∃ (hover : Hover) (tallies : List Coverage.Tally),
        (observing.hover observedWorld "a" "read" ⟨0, 3⟩ false).1 = some hover ∧
        hover.range.contains ⟨0, 3⟩ = true ∧ hover.range = ⟨⟨0, 0⟩, ⟨0, 5⟩⟩ ∧
        (observing.talliesAt observedWorld "a" ⟨0, 3⟩ false).1 = some tallies ∧
        hover.contents = Coverage.phrases tallies ∧
        hover.contents = "`true` returned 2 times  \nExpression short-circuited once" := by
  have reached : Reached oneModifier observing :=
    .call observedWorld _ (.call observedWorld _ .empty)
  have uncovered : (observing.coverageAt observedWorld "a" ⟨0, 10⟩ false).1 = none :=
    (coverageAt_observing _).trans rfl
  have past : (observing.hover observedWorld "a" "allow read" ⟨0, 10⟩ false).1 =
      some ⟨"Any read", ⟨⟨0, 6⟩, ⟨0, 10⟩⟩⟩ := by
    rw [hover_of_uncovered uncovered, wordHover_congr (desk_coverageAt ..)]
    decide +kernel
  have covered : (observing.coverageAt observedWorld "a" ⟨0, 3⟩ false).1 = observedEntries.head? :=
    (coverageAt_observing _).trans rfl
  have shown : (observing.hover observedWorld "a" "read" ⟨0, 3⟩ false).1 =
      observedEntries.head?.map Hover.ofEntry := by
    rw [hover_of_coverageAt covered]
    rfl
  refine ⟨reached, ?_, ?_⟩
  · obtain ⟨inside, told⟩ := hover_around_position reached past
    obtain ⟨columns, word, run, range, table, symbol, held, named, asked, tells⟩ :=
      (told _ (.inl rfl)).2 uncovered
    cases columns
    cases range
    have found : Text.wordIn "allow read" ⟨6, 10⟩ = some "read" := by cbv
    rw [run.wordIn, Option.some.injEq] at found
    subst found
    have kind : (observing.ask observedWorld (.symbol "read")).1 =
        some (.modifier ⟨0, "read", "Any read", none, none⟩) := rfl
    cases asked.symm.trans kind
    exact ⟨_, table, _, past, inside, rfl, held, named, rfl, rfl⟩
  · obtain ⟨inside, told⟩ := hover_around_position reached shown
    obtain ⟨tallies, observed, same⟩ := (told _ (.inl rfl)).1 _ covered
    exact ⟨_, tallies, shown, inside, rfl, observed, congrArg Hover.contents same, by decide⟩

end Workspace

end Editor

end RulesAssist
