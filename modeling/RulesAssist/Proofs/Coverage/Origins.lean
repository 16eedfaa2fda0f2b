import RulesAssist.Proofs.Coverage.Moves
import RulesAssist.Proofs.Coverage.Traffic

/-! Which report the entries come from that a load answers with.

Every listing was read once, by a load on behalf of the file that its report names first. A load that
reads the page itself is that load. A load that finds the entries kept takes them as they are, so its
own file is the one that the report names exactly if it is the file they were read for.
-/

set_option autoImplicit false

namespace RulesAssist.Coverage

def Page.Declares (page file : String) : Prop :=
  ∃ report, Page.report page = .ok report ∧ report.files.head? = some file

theorem Page.declares_of_entries {page file : String} {entries : List Entry}
    (parsed : Page.entries page file = .ok entries) : Page.Declares page file := by
  unfold Page.entries at parsed
  cases read : Page.report page with
  | error error => simp [read, bind, Except.bind] at parsed
  | ok report =>
    simp only [read, bind, Except.bind] at parsed
    cases files : report.files with
    | nil => simp [files] at parsed
    | cons found others =>
      by_cases same : found = file
      · exact ⟨report, read, by simp [files, same]⟩
      · simp [files, same] at parsed

theorem Page.Declares.unique {page first second : String} (one : Page.Declares page first)
    (other : Page.Declares page second) : first = second := by
  obtain ⟨report, read, head⟩ := one
  obtain ⟨report', read', head'⟩ := other
  rw [read, Except.ok.injEq] at read'
  subst read'
  rw [head, Option.some.injEq] at head'
  exact head'

def Answer.ReadFrom (answer : Answer) (text : String) : Prop :=
  answer.source = some text ∧ Page.entries text answer.file = .ok answer.listing.content

/-- The answer gave out the listing of a page after reading it. -/
def Answer.Brought (origin : Answer) (key : PageKey) (listing : Listing) : Prop :=
  (∃ text, origin.ReadFrom text) ∧ origin.key = key ∧ origin.listing = listing

def Load.Answered (load : Load) (answers : List Answer) : Prop :=
  ∀ listing, load.result? = some (.ok listing) →
    ∃ answer ∈ answers, answer.file = load.file ∧ answer.key = load.key ∧ answer.listing = listing

namespace Traffic

/-- Whatever is kept or was answered has been brought by some answer. -/
structure Traced (traffic : Traffic) : Prop where
  kept : ∀ key listing, traffic.store.cache.listing? key = some listing →
    ∃ origin ∈ traffic.answers, origin.Brought key listing
  known : ∀ answer ∈ traffic.answers, (∃ text, answer.ReadFrom text) ∨
    (answer.source = none ∧ ∃ origin ∈ traffic.answers, origin.Brought answer.key answer.listing)
  returned : ∀ name load, traffic.loads.lookup name = some load → load.Answered traffic.answers

theorem traced_start : Traced start where
  kept := by
    intro key listing held
    cases held
  known := by
    intro answer member
    cases member
  returned := by
    intro name load found
    cases found

theorem Traced.of_fewer {traffic next : Traffic} (traced : traffic.Traced)
    (same : next.answers = traffic.answers)
    (fewer : ∀ key listing, next.store.cache.listing? key = some listing →
      traffic.store.cache.listing? key = some listing)
    (loads : ∀ name load, next.loads.lookup name = some load →
      traffic.loads.lookup name = some load ∨ load.Answered traffic.answers) : next.Traced where
  kept := by
    intro key listing held
    rw [same]
    exact traced.kept key listing (fewer key listing held)
  known := by
    rw [same]
    exact traced.known
  returned := by
    intro name load found
    rw [same]
    rcases loads name load found with before | now
    · exact traced.returned name load before
    · exact now

theorem Traced.answer {traffic : Traffic} (traced : traffic.Traced) (name : Nat) (load : Load)
    (source : Option String) (listing : Listing) (store : Store)
    (known : (∃ text, Answer.ReadFrom ⟨load.file, load.key, source, listing⟩ text) ∨
      (source = none ∧ ∃ origin ∈ traffic.answers, origin.Brought load.key listing))
    (brought : ∀ key other, store.cache.listing? key = some other →
      traffic.store.cache.listing? key = some other ∨
        Answer.Brought ⟨load.file, load.key, source, listing⟩ key other) :
    Traced { traffic with
      store
      loads := Keyed.insert name { load with stage := .finished (.ok listing) } traffic.loads
      answers := traffic.answers ++ [⟨load.file, load.key, source, listing⟩] } where
  kept := by
    intro key other held
    rcases brought key other held with before | now
    · obtain ⟨origin, member, traces⟩ := traced.kept key other before
      exact ⟨origin, List.mem_append_left _ member, traces⟩
    · exact ⟨_, List.mem_append_right _ (List.mem_singleton.mpr rfl), now⟩
  known := by
    intro other member
    -- Answers are only added, so whatever brought a listing still does.
    have widen : ((∃ text, other.ReadFrom text) ∨
        (other.source = none ∧
          ∃ origin ∈ traffic.answers, origin.Brought other.key other.listing)) := by
      rcases List.mem_append.mp member with before | now
      · exact traced.known other before
      · rw [List.mem_singleton.mp now]
        exact known
    rcases widen with own | ⟨none, origin, member, traces⟩
    · exact .inl own
    · exact .inr ⟨none, origin, List.mem_append_left _ member, traces⟩
  returned := by
    intro wanted other now result returned
    rcases lookup_insert_or now with before | rfl
    · obtain ⟨answer, member, same⟩ := traced.returned wanted other before result returned
      exact ⟨answer, List.mem_append_left _ member, same⟩
    · cases returned
      exact ⟨_, List.mem_append_right _ (List.mem_singleton.mpr rfl), rfl, rfl, rfl⟩

theorem Traced.moved {traffic : Traffic} (traced : traffic.Traced) {name : Nat} {load : Load}
    (found : traffic.loads.lookup name = some load) {surroundings : Surroundings} {stage : LoadStage}
    {store : Store} (move : load.Moves surroundings traffic.store load.stage stage store) :
    Traced { traffic with
      store
      loads := Keyed.insert name { load with stage } traffic.loads
      answers := traffic.answers ++ load.answered load.stage stage } := by
  have before := traced.returned name load found
  unfold Load.Answered Load.result? at before
  generalize load.stage = earlier at move before ⊢
  -- Three kinds of moves answer; all others leave the answers and the entries as they are.
  cases move with
  | @found listing held =>
    obtain ⟨origin, member, traces⟩ := traced.kept load.key listing held
    exact traced.answer name load none listing traffic.store
      (.inr ⟨rfl, origin, member, traces⟩) fun _ _ held => .inl held
  | @kept generation text entries parsed _ _ =>
    have read : Answer.ReadFrom ⟨load.file, load.key, some text, ⟨traffic.store.fresh, entries⟩⟩ text :=
      ⟨rfl, parsed⟩
    refine traced.answer name load (some text) ⟨traffic.store.fresh, entries⟩ _ (.inl ⟨text, read⟩) ?_
    intro key listing held
    rw [Cache.listing?_keep] at held
    split at held
    · rename_i same
      cases held
      exact .inr ⟨⟨text, read⟩, same.symm, rfl⟩
    · exact .inl held
  | @answered generation watched text entries parsed _ _ =>
    exact traced.answer name load (some text) ⟨traffic.store.fresh, entries⟩ _
      (.inl ⟨text, rfl, parsed⟩) fun _ _ held => .inl held
  | @rested result =>
    refine traced.of_fewer (by simp [Load.answered]) (fun _ _ held => held) ?_
    intro wanted other now
    apply (lookup_insert_or now).imp_right
    rintro rfl
    exact before
  | _ =>
    refine traced.of_fewer (by simp [Load.answered]) (fun _ _ held => held) ?_
    intro wanted other now
    apply (lookup_insert_or now).imp_right
    rintro rfl listing result
    cases result

theorem Traced.step {versions : Versions} {traffic : Traffic} (traced : traffic.Traced)
    (event : Event) : (traffic.step versions event).Traced := by
  have steps := steps_step versions traffic event
  generalize traffic.step versions event = next at steps ⊢
  cases steps with
  | idle _ => exact traced
  | started _ =>
    refine traced.of_fewer rfl (fun _ _ held => held) ?_
    intro wanted other now
    apply (lookup_insert_or now).imp_right
    rintro rfl listing result
    cases result
  | advanced found move => exact traced.moved found move
  | @cancelled name load found =>
    refine traced.of_fewer rfl (fun _ _ held => held) ?_
    intro wanted other now
    apply (lookup_insert_or now).imp_right
    rintro rfl
    exact traced.returned name load found
  | dropped _ _ =>
    exact traced.of_fewer rfl (fun _ _ held => held) fun _ _ now => .inl (Keyed.lookup_of_erase now).2
  | rewritten => exact traced.of_fewer rfl (fun _ _ held => held) fun _ _ found => .inl found
  | delivered _ =>
    refine traced.of_fewer rfl ?_ fun _ _ found => .inl found
    intro wanted listing held
    rw [deliver_cache, Cache.listing?_foldl_evict] at held
    split at held
    · cases held
    · exact held
  | invalidated =>
    exact traced.of_fewer rfl (fun _ _ held => (Keyed.lookup_of_erase held).2) fun _ _ found => .inl found
  | closed =>
    refine traced.of_fewer rfl ?_ fun _ _ found => .inl found
    intro wanted listing held
    cases held
  | released _ => exact traced.of_fewer rfl (fun _ _ held => held) fun _ _ found => .inl found

theorem traced_run (versions : Versions) (events : List Event) : (run versions events).Traced :=
  run_induction traced_start (fun _ event traced => traced.step event) events

theorem Traced.origin {traffic : Traffic} (traced : traffic.Traced) {answer : Answer}
    (given : answer ∈ traffic.answers) :
    ∃ origin ∈ traffic.answers, ∃ text, origin.ReadFrom text ∧ origin.key = answer.key ∧
      origin.listing = answer.listing ∧ (answer.source = none ∨ origin = answer) := by
  rcases traced.known answer given with ⟨text, own⟩ | ⟨kept, origin, member, ⟨text, read⟩, key, listing⟩
  · exact ⟨answer, given, text, own, rfl, rfl, .inr rfl⟩
  · exact ⟨origin, member, text, read, key, listing, .inl kept⟩

/-- Every listing that a load returns was parsed from some page for some file. The report on that page
declares the file of the load exactly if the listing was parsed for that file, as it was if the load
has read the page itself. -/
theorem returned_listing_declares_iff (versions : Versions) (events : List Event) (name : Nat)
    (load : Load) (listing : Listing)
    (found : (run versions events).loads.lookup name = some load)
    (returned : load.result? = some (.ok listing)) :
    ∃ answer ∈ (run versions events).answers,
      answer.file = load.file ∧ answer.key = load.key ∧ answer.listing = listing ∧
      ∃ origin ∈ (run versions events).answers, ∃ text,
        origin.ReadFrom text ∧ origin.key = load.key ∧ origin.listing = listing ∧
        (answer.source = none ∨ origin = answer) ∧
        (Page.Declares text load.file ↔ origin.file = load.file) := by
  have traced := traced_run versions events
  obtain ⟨answer, given, file, key, same⟩ := traced.returned name load found listing returned
  obtain ⟨origin, member, text, read, page, brought, fresh⟩ := traced.origin given
  have declared := Page.declares_of_entries read.2
  refine ⟨answer, given, file, key, same, origin, member, text, read, page.trans key,
    brought.trans same, fresh, ?_, ?_⟩
  · intro declares
    exact declared.unique declares
  · intro equal
    exact equal ▸ declared

/-- A page that reports on the file `a`, with one region. Records may be arrays of their fields. -/
def pageOnA : String :=
  Marker.start.text ++ "\x7b\"rules\":[[[\"a\"]]],\"report\":[[[1,1,0,3]]]\x7d" ++ Marker.stop.text

def entriesOnA : List Entry := [⟨⟨⟨0, 0⟩, ⟨0, 5⟩⟩, []⟩]

theorem entries_pageOnA : Page.entries pageOnA "a" = .ok entriesOnA := by cbv

def oneAfterAnother (key : PageKey) : List Event :=
  .start 0 "a" key :: List.replicate 7 (.advance 0 false false) ++
    [.start 1 "b" key, .advance 1 false false]

theorem run_oneAfterAnother {page : String} {entries : List Entry} (key : PageKey)
    (parsed : Page.entries page "a" = .ok entries) :
    (run (fun _ _ => some page) (oneAfterAnother key)).loads.lookup 1 =
      some ⟨"b", key, false, .finished (.ok ⟨0, entries⟩)⟩ := by
  simp [run, oneAfterAnother, List.replicate, step, start, advance, surroundings, Load.start,
    Load.advance, Load.note, Load.checkWatch, Load.settle, Load.publish, parsed, Keyed.insert,
    List.lookup_cons, Store.empty, Cache.empty, Cache.listing?, Cache.isWatched, Cache.generation,
    Cache.record, Cache.keep, Watcher.subscribe]

/-- The law holds of the second load: the file of the load that brought its listing is another one. -/
theorem returned_listing_declares_iff_second_load :
    (run (fun _ _ => some pageOnA) (oneAfterAnother [.root, .name "page"])).loads.lookup 1 =
      some ⟨"b", [.root, .name "page"], false, .finished (.ok ⟨0, entriesOnA⟩)⟩ ∧
    ∃ origin ∈ (run (fun _ _ => some pageOnA) (oneAfterAnother [.root, .name "page"])).answers,
      ∃ text, origin.ReadFrom text ∧ origin.listing = ⟨0, entriesOnA⟩ ∧
        (Page.Declares text "b" ↔ origin.file = "b") := by
  have found := run_oneAfterAnother [.root, .name "page"] entries_pageOnA
  obtain ⟨answer, _, _, _, _, origin, member, text, read, _, listing, _, declares⟩ :=
    returned_listing_declares_iff (fun _ _ => some pageOnA) (oneAfterAnother [.root, .name "page"]) 1
      _ _ found rfl
  exact ⟨found, origin, member, text, read, listing, declares⟩

/-- The entries that it returns were parsed from a report that does not declare its file. -/
theorem returned_listing_of_other_file :
    (run (fun _ _ => some pageOnA) (oneAfterAnother [.root, .name "page"])).loads.lookup 1 =
      some ⟨"b", [.root, .name "page"], false, .finished (.ok ⟨0, entriesOnA⟩)⟩ ∧
    Page.entries pageOnA "a" = .ok entriesOnA ∧ ¬ Page.Declares pageOnA "b" := by
  refine ⟨run_oneAfterAnother _ entries_pageOnA, entries_pageOnA, ?_⟩
  intro declares
  have same := (Page.declares_of_entries entries_pageOnA).unique declares
  exact absurd same (by decide)

end Traffic

end RulesAssist.Coverage
