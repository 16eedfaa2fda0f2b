import RulesAssist.Proofs.Coverage.Origins
import RulesAssist.Proofs.Editor.Hover

/-! Hovers that are cancelled before they begin.

A cancelled load ends where it would read the page. It never has a text to look at, so that it keeps
nothing and evicts nothing, but entries that are kept already it hands out like any other load. A
cancelled hover is silent therefore as long as nobody has read the page, and the symbols of the
grammar are not asked for either.
-/

set_option autoImplicit false

namespace RulesAssist

namespace Coverage

namespace Load

variable {load : Load} {surroundings : Surroundings} {store next : Store} {earlier stage : LoadStage}

theorem Moves.of_cancelled (move : load.Moves surroundings store earlier stage next)
    (cancelled : load.cancelled = true)
    (unread : ∀ generation watched text, earlier ≠ .read generation watched text) :
    (∀ generation watched text, stage ≠ .read generation watched text) ∧
      next.cache.listings = store.cache.listings ∧
      next.cache.generations = store.cache.generations := by
  cases move with
  -- The page is only read by a load that is not cancelled.
  | read ready =>
    rw [cancelled] at ready
    cases ready
  | rejected _ | superseded _ _ | kept _ _ _ | answered _ _ _ => exact absurd rfl (unread _ _ _)
  | _ => exact ⟨nofun, rfl, rfl⟩

/-- What a cancelled load leaves alone, however far it has come. -/
structure Idle (store : Store) (state : Load × Store) : Prop where
  cancelled : state.1.cancelled = true
  unread : ∀ generation watched text, state.1.stage ≠ .read generation watched text
  listings : state.2.cache.listings = store.cache.listings
  generations : state.2.cache.generations = store.cache.generations

theorem Idle.step {state : Load × Store} (idle : Idle store state) (surroundings : Surroundings) :
    Idle store (step surroundings state) := by
  obtain ⟨unread, kept, noted⟩ :=
    (moves_advance state.1 surroundings state.2).of_cancelled idle.cancelled idle.unread
  exact ⟨idle.cancelled, unread, kept.trans idle.listings, noted.trans idle.generations⟩

theorem idle_repeat (file : String) (key : PageKey) (surroundings : Surroundings) (store : Store)
    (count : Nat) :
    Idle store (Nat.repeat (Load.step surroundings) count (start file key true, store)) := by
  induction count with
  | zero => exact ⟨rfl, nofun, rfl, rfl⟩
  | succ count ih => exact ih.step surroundings

theorem cache_run_cancelled (file : String) (key : PageKey) (surroundings : Surroundings)
    (store : Store) :
    ((start file key true).run surroundings store).2.cache.listings = store.cache.listings ∧
      ((start file key true).run surroundings store).2.cache.generations =
        store.cache.generations := by
  have idle := idle_repeat file key surroundings store stepLimit
  exact ⟨idle.listings, idle.generations⟩

theorem content_run_cancelled (file : String) (key : PageKey) (surroundings : Surroundings)
    (store : Store) :
    (((start file key true).run surroundings store).1.map (·.content)).toOption =
      (store.cache.listing? key).map (·.content) := by
  cases held : store.cache.listing? key with
  | some listing =>
    rw [run_of_kept file true held]
    rfl
  | none =>
    obtain ⟨result, next, ran, read, _⟩ := run_of_missing file true held surroundings
    rw [ran, read]
    rfl

end Load

theorem Load.run_empty {file text : String} {entries : List Entry} (key : PageKey)
    (parsed : Page.entries text file = .ok entries) :
    ((start file key false).run ⟨false, some text⟩ .empty).2.cache.listing? key =
      some ⟨0, entries⟩ := by
  simp [run, stepLimit, Nat.repeat, step, advance, start, note, checkWatch, settle, publish, parsed,
    Store.empty, Cache.empty, Cache.listing?, Cache.isWatched, Cache.generation,
    Cache.record, Cache.keep, Watcher.subscribe, Keyed.insert]

theorem Store.cache_close (store : Store) : store.close.cache = store.cache.close.2 := by
  have released : ∀ (handles : List Handle) (now : Store),
      (handles.foldl release now).cache = now.cache := by
    intro handles
    induction handles with
    | nil => exact fun _ => rfl
    | cons handle rest ih => exact fun now => ih (now.release handle)
  exact released _ _

end Coverage

namespace Editor

open Coverage (Entry PageKey innermost)

def Call.mayRead : Call → Bool
  | .coverageAt _ _ cancelled | .talliesAt _ _ cancelled | .hover _ _ _ cancelled
  | .load _ _ cancelled => !cancelled
  | _ => false

namespace Workspace

/-- The workspaces that calls lead to of which none may read a page. -/
inductive Unread (source : Source) : Workspace → Prop where
  | empty : Unread source .empty
  | call {workspace : Workspace} (world : World) {call : Call} : call.mayRead = false →
      Unread source workspace → Unread source (workspace.perform { world with source } call)

section

variable (workspace : Workspace) (world : World) (file line : String) (position : Position)

def keptEntries : Option (List Entry) := do
  let path ← workspace.coveragePage
  let listing ← workspace.store.cache.listing? (FilePath.resolve world.directory path)
  return listing.content

theorem keptEntries_of_kept {path : String} (page : workspace.coveragePage = some path)
    {listing : Coverage.Listing}
    (held : workspace.store.cache.listing? (FilePath.resolve world.directory path) = some listing) :
    workspace.keptEntries world = some listing.content := by
  simp [keptEntries, page, held]

theorem coverageAt_cancelled :
    (workspace.coverageAt world file position true).1 =
      (workspace.keptEntries world).bind (innermost · position) := by
  cases page : workspace.coveragePage with
  | none => simp [coverageAt, keptEntries, page]
  | some path =>
    rw [coverageAt_of_page page, Coverage.Load.content_run_cancelled]
    cases held : workspace.store.cache.listing? (FilePath.resolve world.directory path) <;>
      simp [keptEntries, page, held]

theorem coverageAt_of_kept {entries : List Entry} (kept : workspace.keptEntries world = some entries)
    (cancelled : Bool) :
    (workspace.coverageAt world file position cancelled).1 = innermost entries position := by
  simp only [keptEntries, bind, pure, Option.bind_eq_some_iff, Option.some.injEq] at kept
  obtain ⟨path, page, listing, held, rfl⟩ := kept
  rw [coverageAt_of_page page, Coverage.Load.run_of_kept file cancelled held]
  rfl

theorem cache_coverageAt_cancelled :
    (workspace.coverageAt world file position true).2.store.cache.listings =
        workspace.store.cache.listings ∧
      (workspace.coverageAt world file position true).2.store.cache.generations =
        workspace.store.cache.generations := by
  unfold coverageAt
  split
  · exact ⟨rfl, rfl⟩
  · exact Coverage.Load.cache_run_cancelled ..

theorem hover_cancelled :
    workspace.hover world file line position true =
      ((workspace.coverageAt world file position true).1.map Hover.ofEntry,
        (workspace.coverageAt world file position true).2) := by
  unfold hover
  split
  · rename_i entry after covered
    rw [covered]
    rfl
  · rename_i after missing
    rw [missing]
    rfl

theorem store_completions : (workspace.completions world line).2.store = workspace.store := by
  unfold completions
  split
  · rfl
  · split <;> rfl

theorem store_symbolBefore : (workspace.symbolBefore world line).2.store = workspace.store := by
  unfold symbolBefore
  split <;> rfl

/-- A call that may not read a page does not bring any entries. -/
theorem listing?_perform {call : Call} (unread : call.mayRead = false)
    (missing : ∀ key, workspace.store.cache.listing? key = none) (key : PageKey) :
    (workspace.perform world call).store.cache.listing? key = none := by
  -- Most calls leave all listings as they are.
  have of_same {next : Workspace}
      (same : next.store.cache.listings = workspace.store.cache.listings) :
      next.store.cache.listing? key = none := by
    rw [Coverage.Cache.listing?, same]
    exact missing key
  cases call with
  | configure settings => exact missing key
  | openAt root => exact missing key
  | ask query => exact missing key
  | membersOf name => exact missing key
  | completions line =>
    simp only [perform, store_completions]
    exact missing key
  | symbolBefore line =>
    simp only [perform, store_symbolBefore]
    exact missing key
  | coverageAt file position cancelled | talliesAt file position cancelled =>
    obtain rfl : cancelled = true := by simpa [Call.mayRead] using unread
    exact of_same (cache_coverageAt_cancelled workspace world file position).1
  | hover file line position cancelled =>
    obtain rfl : cancelled = true := by simpa [Call.mayRead] using unread
    simp only [perform, hover_cancelled]
    exact of_same (cache_coverageAt_cancelled workspace world file position).1
  | load file path cancelled =>
    obtain rfl : cancelled = true := by simpa [Call.mayRead] using unread
    exact of_same (Coverage.Load.cache_run_cancelled ..).1
  | notify path =>
    simp only [perform, Coverage.Store.notify, Coverage.Cache.listing?_foldl_evict, missing, ite_self]
  | discard path =>
    simp only [perform, Coverage.Store.discard, Coverage.Cache.listing?_evict, missing, ite_self]
  | shutdown =>
    simp only [perform, shutdown, Coverage.Store.cache_close]
    rfl

end

theorem Unread.listing? {source : Source} {workspace : Workspace} (unread : Unread source workspace) :
    ∀ key, workspace.store.cache.listing? key = none := by
  induction unread with
  | empty => exact fun _ => rfl
  | call world quiet _ ih => exact listing?_perform _ _ quiet ih

theorem Unread.keptEntries {source : Source} {workspace : Workspace}
    (unread : Unread source workspace) (world : World) : workspace.keptEntries world = none := by
  cases page : workspace.coveragePage <;> simp [Workspace.keptEntries, page, unread.listing?]

/-- A cancelled hover shows the innermost of the entries that are kept for the page, if one of them
contains the position, as it would if it were not cancelled, and else nothing. So it shows nothing if no
call before it may have read a page. It leaves what is kept as it is and asks nothing about symbols. -/
theorem cancelled_hover_shows_kept (workspace : Workspace) (world : World) (file line : String)
    (position : Position) :
    (∀ hover, (workspace.hover world file line position true).1 = some hover ↔
      ∃ entries entry, workspace.keptEntries world = some entries ∧
        innermost entries position = some entry ∧ hover = Hover.ofEntry entry) ∧
    ((workspace.hover world file line position true).1 = none ↔
      ∀ entries, workspace.keptEntries world = some entries →
        ∀ entry ∈ entries, entry.span.contains position = false) ∧
    (∀ hover, (workspace.hover world file line position true).1 = some hover →
      (workspace.hover world file line position false).1 = some hover) ∧
    (∀ source, Unread source workspace →
      (workspace.hover world file line position true).1 = none) ∧
    (workspace.hover world file line position true).2.store.cache.listings =
      workspace.store.cache.listings ∧
    (workspace.hover world file line position true).2.store.cache.generations =
      workspace.store.cache.generations ∧
    (workspace.hover world file line position true).2.desk = workspace.desk := by
  obtain ⟨listings, generations⟩ := cache_coverageAt_cancelled workspace world file position
  have shown : ∀ hover, (workspace.hover world file line position true).1 = some hover ↔
      ∃ entries entry, workspace.keptEntries world = some entries ∧
        innermost entries position = some entry ∧ hover = Hover.ofEntry entry := by
    intro hover
    rw [hover_cancelled, coverageAt_cancelled, Option.map_eq_some_iff]
    constructor
    · rintro ⟨entry, found, rfl⟩
      obtain ⟨entries, kept, chosen⟩ := Option.bind_eq_some_iff.mp found
      exact ⟨entries, entry, kept, chosen, rfl⟩
    · rintro ⟨entries, entry, kept, chosen, rfl⟩
      exact ⟨entry, Option.bind_eq_some_iff.mpr ⟨entries, kept, chosen⟩, rfl⟩
  have silent : (workspace.hover world file line position true).1 = none ↔
      ∀ entries, workspace.keptEntries world = some entries →
        ∀ entry ∈ entries, entry.span.contains position = false := by
    rw [hover_cancelled, coverageAt_cancelled, Option.map_eq_none_iff, Option.bind_eq_none_iff]
    exact forall₂_congr fun _ _ => Coverage.innermost_eq_none_iff
  refine ⟨shown, silent, ?_, ?_, ?_, ?_, ?_⟩
  · intro hover cancelled
    obtain ⟨entries, entry, kept, chosen, rfl⟩ := (shown hover).mp cancelled
    have found := coverageAt_of_kept workspace world file position kept false
    rw [chosen] at found
    rw [hover_of_coverageAt found]
  · intro source unread
    rw [silent, unread.keptEntries world]
    exact nofun
  all_goals rw [hover_cancelled]
  · exact listings
  · exact generations
  · exact desk_coverageAt ..

theorem keptEntries_first_hover {workspace : Workspace} {world : World} {file text path : String}
    {entries : List Entry} {position : Position} {entry : Entry} (line : String)
    (fresh : workspace.store = .empty) (accepts : world.refuses = false)
    (page : workspace.coveragePage = some path) (read : world.read path = some text)
    (parsed : Coverage.Page.entries text file = .ok entries)
    (chosen : innermost entries position = some entry) :
    (workspace.perform world (.hover file line position false)).keptEntries world = some entries := by
  have found : (workspace.coverageAt world file position false).1 = some entry :=
    (coverageAt_of_parsed page (by rw [fresh]; rfl) read parsed).trans chosen
  rw [perform, hover_of_coverageAt found]
  have held : (workspace.coverageAt world file position false).2.store.cache.listing?
      (FilePath.resolve world.directory path) = some ⟨0, entries⟩ := by
    rw [store_coverageAt page, fresh, accepts, read]
    exact Coverage.Load.run_empty _ parsed
  exact keptEntries_of_kept _ world (coveragePage_coverageAt.trans page) held

def pageWorld : World where
  source := oneModifier
  files := FileTree.empty.write [.root, .name "page"] (some Coverage.Traffic.pageOnA)
  directory := []

def opened : Workspace :=
  (Workspace.empty.perform pageWorld (.configure { coverageFile := some "/page" })).perform pageWorld
    (.openAt "/")

def hovered : Workspace :=
  opened.perform pageWorld (.hover "a" "" ⟨0, 3⟩ false)

theorem reached_hovered : Reached oneModifier hovered :=
  .call pageWorld (.hover "a" "" ⟨0, 3⟩ false) (.call pageWorld _ (.call pageWorld _ .empty))

theorem keptEntries_hovered :
    hovered.keptEntries pageWorld = some Coverage.Traffic.entriesOnA :=
  keptEntries_first_hover "" rfl rfl rfl rfl Coverage.Traffic.entries_pageOnA rfl

/-- After a hover that has read the page a cancelled one shows its entry, and before that hover it shows
nothing. -/
theorem cancelled_hover_shows_kept_hovered :
    Reached oneModifier hovered ∧
      (hovered.hover pageWorld "a" "" ⟨0, 3⟩ true).1 =
        some ⟨"Expression never evaluated", ⟨⟨0, 0⟩, ⟨0, 5⟩⟩⟩ ∧
      Unread oneModifier opened ∧ (opened.hover pageWorld "a" "" ⟨0, 3⟩ true).1 = none := by
  have unread : Unread oneModifier opened := .call pageWorld rfl (.call pageWorld rfl .empty)
  obtain ⟨shown, _⟩ := cancelled_hover_shows_kept hovered pageWorld "a" "" ⟨0, 3⟩
  obtain ⟨_, _, _, silent, _⟩ := cancelled_hover_shows_kept opened pageWorld "a" "" ⟨0, 3⟩
  exact ⟨reached_hovered, (shown _).mpr ⟨_, _, keptEntries_hovered, rfl, rfl⟩, unread,
    silent oneModifier unread⟩

/-- It is not so that every cancelled hover shows nothing. -/
theorem cancelled_hover_answers :
    ¬ ∀ (workspace : Workspace) (world : World) (file line : String) (position : Position),
      Reached world.source workspace →
      (workspace.hover world file line position true).1 = none ∧
        ∀ key, (workspace.hover world file line position true).2.store.cache.holds key =
          workspace.store.cache.holds key := by
  intro silent
  have missing := (silent hovered pageWorld "a" "" ⟨0, 3⟩ reached_hovered).1
  rw [hover_cancelled, coverageAt_cancelled, keptEntries_hovered] at missing
  cases missing

end Workspace

end Editor

end RulesAssist
