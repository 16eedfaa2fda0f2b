import RulesAssist.Proofs.Coverage.Freshness

/-! An eviction beats every load of the page that is under way.

The generation of a page is the number of its evictions. A load that has noted it carries the number to
its last step, so that it finds out about any eviction that came between. A load that brings no entries
leaves nothing behind either.
-/

set_option autoImplicit false

namespace RulesAssist.Coverage

namespace LoadStage

/-- How many own steps a load takes from here at most. -/
def remaining : LoadStage → Nat
  | .started => 8
  | .noted _ => 7
  | .subscribing _ => 6
  | .subscribed _ _ => 5
  | .releasing _ _ _ => 4
  | .prepared _ _ => 3
  | .fetched _ _ _ => 2
  | .read _ _ _ => 1
  | .finished _ => 0

theorem finished_of_remaining {stage : LoadStage} (none : stage.remaining = 0) :
    ∃ result, stage = .finished result := by
  cases stage with
  | finished result => exact ⟨result, rfl⟩
  | _ => cases none

end LoadStage

namespace Load

variable {load : Load} {surroundings : Surroundings} {store next : Store} {earlier stage : LoadStage}

theorem Moves.remaining_le (move : load.Moves surroundings store earlier stage next) :
    stage.remaining ≤ earlier.remaining - 1 := by
  cases move <;> simp [LoadStage.remaining]

theorem result?_eq_some {result : Except LoadError Listing} :
    load.result? = some result ↔ load.stage = .finished result := by
  unfold result?
  cases load.stage <;> simp

theorem Moves.of_started (move : load.Moves surroundings store earlier stage next)
    (fresh : earlier = .started) (missed : store.cache.listing? load.key = none) :
    stage = .noted (store.cache.generation load.key) := by
  subst fresh
  cases move with
  | found held =>
    rw [missed] at held
    cases held
  | noted _ => rfl

theorem Moves.of_finished (move : load.Moves surroundings store earlier stage next)
    {result : Except LoadError Listing} (ended : earlier = .finished result) :
    stage = .finished result := by
  subst ended
  cases move
  rfl

theorem Moves.generation_eq (move : load.Moves surroundings store earlier stage next) (key : PageKey) :
    next.cache.generation key = store.cache.generation key := by
  cases move <;> rfl

/-- A load keeps the generation that it has noted, until it ends. It ends well only if that is still the
generation of its page. -/
theorem Moves.keeps_generation (move : load.Moves surroundings store earlier stage next)
    {generation : Nat} (noted : earlier.generation? = some generation) :
    stage.generation? = some generation ∨ (∃ error, stage = .finished (.error error)) ∨
      ∃ listing, stage = .finished (.ok listing) ∧ store.cache.generation load.key = generation := by
  cases move with
  | found _ | noted _ | rested => cases noted
  | withdrawn _ | abandoned _ | unreadable _ | rejected _ | superseded _ _ => exact .inr (.inl ⟨_, rfl⟩)
  | kept _ same _ | answered _ same _ =>
    cases noted
    exact .inr (.inr ⟨_, rfl, same⟩)
  | _ => exact .inl noted

theorem Moves.listing?_eq (move : load.Moves surroundings store earlier stage next)
    (fruitless : ∀ listing, stage ≠ .finished (.ok listing)) (key : PageKey) :
    next.cache.listing? key = store.cache.listing? key := by
  cases move with
  | kept _ _ _ => exact absurd rfl (fruitless _)
  | _ => rfl

end Load

namespace Traffic

def isUnderWay (traffic : Traffic) (name : Nat) : Bool :=
  (traffic.loads.lookup name).any fun load => !load.stage.isFinished

/-- How often a page is evicted while the load is under way. -/
def evictionsDuring (versions : Versions) (name : Nat) (key : PageKey) : Traffic → List Event → Nat
  | _, [] => 0
  | traffic, event :: rest =>
    (if traffic.isUnderWay name then traffic.evictions key event else 0) +
      evictionsDuring versions name key (traffic.step versions event) rest

/-- The load is there all the time, so that it is not dropped and another one does not take its name. -/
def Remains (versions : Versions) (name : Nat) : Traffic → List Event → Prop
  | traffic, [] => (traffic.loads.lookup name).isSome
  | traffic, event :: rest =>
    (traffic.loads.lookup name).isSome ∧ Remains versions name (traffic.step versions event) rest

def ownSteps (name : Nat) (events : List Event) : Nat :=
  events.countP fun
    | .advance other _ _ => other == name
    | _ => false

def Spares (versions : Versions) (traffic : Traffic) (event : Event) (key : PageKey) : Prop :=
  (traffic.step versions event).store.cache.listing? key = traffic.store.cache.listing? key ∧
    (traffic.step versions event).store.cache.generation key = traffic.store.cache.generation key

variable {versions : Versions} {traffic : Traffic} {name : Nat} {load : Load}

theorem Idle.evictions_eq {event : Event} (idle : traffic.Idle event) (key : PageKey) :
    traffic.evictions key event = 0 := by
  cases idle with
  | delivered unsent => exact if_neg unsent
  | _ => rfl

theorem generation_step (versions : Versions) (traffic : Traffic) (event : Event) (key : PageKey) :
    (traffic.step versions event).store.cache.generation key =
      traffic.store.cache.generation key + traffic.evictions key event := by
  have steps := steps_step versions traffic event
  generalize traffic.step versions event = next at steps ⊢
  cases steps with
  | idle idle => rw [idle.evictions_eq, Nat.add_zero]
  | advanced _ move => exact move.generation_eq key
  | delivered sent =>
    rw [deliver_cache, Cache.generation_foldl_evict, evictions, if_pos sent]
  | @invalidated path =>
    rw [discard_cache, Cache.generation_evict, evictions]
    by_cases same : key = path
    · rw [if_pos same, if_pos same.symm, same]
    · rw [if_neg same, if_neg (Ne.symm same), Nat.add_zero]
  | _ => rfl

theorem moves_step (versions : Versions) (found : traffic.loads.lookup name = some load)
    (refuses unreadable : Bool) :
    ∃ stage, (traffic.step versions (.advance name refuses unreadable)).loads.lookup name =
        some { load with stage } ∧
      load.Moves (traffic.surroundings versions load.key refuses unreadable) traffic.store load.stage
        stage (traffic.step versions (.advance name refuses unreadable)).store := by
  rw [step_advance found]
  exact ⟨_, Keyed.lookup_insert_self .., load.moves_advance _ _⟩

theorem lookup_step_of_ne (found : traffic.loads.lookup name = some load) {event : Event}
    (foreign : ∀ refuses unreadable, event ≠ .advance name refuses unreadable) {next : Load}
    (after : (traffic.step versions event).loads.lookup name = some next) :
    next.key = load.key ∧ next.stage = load.stage := by
  cases comes_step after with
  | stayed known _ =>
    rw [found, Option.some.injEq] at known
    subst known
    exact ⟨rfl, rfl⟩
  | started new =>
    rw [found] at new
    cases new
  | cancelled known =>
    rw [found, Option.some.injEq] at known
    subst known
    exact ⟨rfl, rfl⟩
  | moved _ _ => exact absurd rfl (foreign _ _)

theorem own_or_foreign (name : Nat) (event : Event) :
    (∃ refuses unreadable, event = .advance name refuses unreadable) ∨
      ∀ refuses unreadable, event ≠ .advance name refuses unreadable := by
  by_cases own : ∃ refuses unreadable, event = .advance name refuses unreadable
  · exact .inl own
  · exact .inr fun refuses unreadable same => own ⟨refuses, unreadable, same⟩

theorem Remains.head {events : List Event} (remains : Remains versions name traffic events) :
    ∃ load, traffic.loads.lookup name = some load := by
  cases events with
  | nil => exact Option.isSome_iff_exists.mp remains
  | cons event rest => exact Option.isSome_iff_exists.mp remains.1

theorem Remains.later {early late : List Event}
    (remains : Remains versions name traffic (early ++ late)) :
    Remains versions name (early.foldl (step versions) traffic) late := by
  induction early generalizing traffic with
  | nil => exact remains
  | cons event rest ih => exact ih remains.2

theorem finished_step (found : traffic.loads.lookup name = some load)
    {result : Except LoadError Listing} (ended : load.stage = .finished result) {event : Event}
    {next : Load} (after : (traffic.step versions event).loads.lookup name = some next) :
    next.stage = .finished result := by
  rcases own_or_foreign name event with ⟨refuses, unreadable, rfl⟩ | foreign
  · obtain ⟨stage, moved, move⟩ := moves_step versions found refuses unreadable
    rw [after, Option.some.injEq] at moved
    subst moved
    exact move.of_finished ended
  · exact (lookup_step_of_ne found foreign after).2.trans ended

theorem Remains.finished {events : List Event} (remains : Remains versions name traffic events)
    (found : traffic.loads.lookup name = some load) {result : Except LoadError Listing}
    (ended : load.stage = .finished result) :
    ∃ last, (events.foldl (step versions) traffic).loads.lookup name = some last ∧
      last.stage = .finished result := by
  induction events generalizing traffic load with
  | nil => exact ⟨load, found, ended⟩
  | cons event rest ih =>
    obtain ⟨next, after⟩ := remains.2.head
    exact ih remains.2 after (finished_step found ended after)

theorem Remains.remaining_le {events : List Event} (remains : Remains versions name traffic events)
    (found : traffic.loads.lookup name = some load) :
    ∃ last, (events.foldl (step versions) traffic).loads.lookup name = some last ∧
      last.key = load.key ∧
      last.stage.remaining ≤ load.stage.remaining - ownSteps name events := by
  induction events generalizing traffic load with
  | nil => exact ⟨load, found, rfl, Nat.le_refl _⟩
  | cons event rest ih =>
    obtain ⟨next, after⟩ := remains.2.head
    obtain ⟨last, now, page, fewer⟩ := ih remains.2 after
    rcases own_or_foreign name event with ⟨refuses, unreadable, rfl⟩ | foreign
    · obtain ⟨stage, moved, move⟩ := moves_step versions found refuses unreadable
      rw [after, Option.some.injEq] at moved
      subst moved
      refine ⟨last, now, page, ?_⟩
      have closer := move.remaining_le
      simp only [ownSteps, List.countP_cons, beq_self_eq_true, if_true] at fewer ⊢
      omega
    · obtain ⟨key, same⟩ := lookup_step_of_ne found foreign after
      refine ⟨last, now, page.trans key, ?_⟩
      rw [same] at fewer
      have uncounted : ownSteps name (event :: rest) = ownSteps name rest := by
        apply List.countP_cons_of_neg
        cases event with
        | advance other refuses unreadable =>
          intro own
          exact foreign refuses unreadable (by rw [beq_iff_eq.mp own])
        | _ => exact Bool.false_ne_true
      rw [uncounted]
      exact fewer

/-- How a load fares that has noted a generation, when its page has been evicted so many times since. -/
inductive Course (traffic : Traffic) (name : Nat) (key : PageKey) (generation evicted : Nat) : Prop where
  | underWay {load : Load} : traffic.loads.lookup name = some load → load.key = key →
      load.stage.generation? = some generation →
      traffic.store.cache.generation key = generation + evicted → Course traffic name key generation evicted
  | failed {load : Load} {error : LoadError} : traffic.loads.lookup name = some load →
      load.stage = .finished (.error error) → Course traffic name key generation evicted
  | answered {load : Load} {listing : Listing} : traffic.loads.lookup name = some load →
      load.stage = .finished (.ok listing) → evicted = 0 → Course traffic name key generation evicted

theorem isUnderWay_of_noted (found : traffic.loads.lookup name = some load) {generation : Nat}
    (noted : load.stage.generation? = some generation) : traffic.isUnderWay name = true := by
  unfold isUnderWay
  rw [found]
  cases stage : load.stage with
  | finished result =>
    rw [stage] at noted
    cases noted
  | _ => simp [stage, LoadStage.isFinished]

theorem isUnderWay_of_finished (found : traffic.loads.lookup name = some load)
    {result : Except LoadError Listing} (ended : load.stage = .finished result) :
    traffic.isUnderWay name = false := by
  simp [isUnderWay, found, ended, LoadStage.isFinished]

theorem Course.step {key : PageKey} {generation evicted : Nat}
    (course : Course traffic name key generation evicted) {event : Event} {next : Load}
    (after : (traffic.step versions event).loads.lookup name = some next) :
    Course (traffic.step versions event) name key generation
      (evicted + if traffic.isUnderWay name then traffic.evictions key event else 0) := by
  cases course with
  | underWay found page noted raised =>
    rw [if_pos (isUnderWay_of_noted found noted)]
    have counted := generation_step versions traffic event key
    rw [raised, Nat.add_assoc] at counted
    rcases own_or_foreign name event with ⟨refuses, unreadable, rfl⟩ | foreign
    · obtain ⟨stage, moved, move⟩ := moves_step versions found refuses unreadable
      rcases move.keeps_generation noted with still | ⟨error, ended⟩ | ⟨listing, ended, same⟩
      · exact .underWay moved page still counted
      · exact .failed moved ended
      · -- The load has looked at the generation, and it is the one that was noted.
        rw [page, raised] at same
        exact .answered moved ended (Nat.add_left_cancel same)
    · obtain ⟨key, stage⟩ := lookup_step_of_ne found foreign after
      exact .underWay after (key.trans page) (stage ▸ noted) counted
  | failed found ended => exact .failed after (finished_step found ended after)
  | answered found ended unevicted =>
    rw [isUnderWay_of_finished found ended]
    exact .answered after (finished_step found ended after) unevicted

theorem Course.run {key : PageKey} {generation evicted : Nat}
    (course : Course traffic name key generation evicted) {events : List Event}
    (remains : Remains versions name traffic events) :
    Course (events.foldl (Traffic.step versions) traffic) name key generation
      (evicted + evictionsDuring versions name key traffic events) := by
  induction events generalizing traffic evicted with
  | nil => exact course
  | cons event rest ih =>
    obtain ⟨next, after⟩ := remains.2.head
    rw [evictionsDuring, ← Nat.add_assoc]
    exact ih (course.step after) remains.2

theorem Remains.course {refuses unreadable : Bool} {events : List Event}
    (remains : Remains versions name traffic (.advance name refuses unreadable :: events))
    (found : traffic.loads.lookup name = some load) (fresh : load.stage = .started)
    (missed : traffic.store.cache.listing? load.key = none) :
    Course ((.advance name refuses unreadable :: events).foldl (Traffic.step versions) traffic) name
      load.key (traffic.store.cache.generation load.key)
      (evictionsDuring versions name load.key traffic
        (.advance name refuses unreadable :: events)) := by
  obtain ⟨stage, moved, move⟩ := moves_step versions found refuses unreadable
  have noted := move.of_started fresh missed
  subst noted
  have first : Course (traffic.step versions (.advance name refuses unreadable)) name load.key
      (traffic.store.cache.generation load.key) 0 :=
    .underWay moved rfl rfl (move.generation_eq load.key)
  -- The first step itself evicts nothing.
  simpa [evictionsDuring, evictions] using first.run remains.2

theorem Course.outcome {key : PageKey} {generation evicted : Nat}
    (course : Course traffic name key generation evicted)
    (found : traffic.loads.lookup name = some load) {result : Except LoadError Listing}
    (ended : load.stage = .finished result) :
    (∃ error, result = .error error) ∨ (∃ listing, result = .ok listing) ∧ evicted = 0 := by
  cases course with
  | underWay known _ noted _ =>
    rw [found, Option.some.injEq] at known
    subst known
    rw [ended] at noted
    cases noted
  | @failed other error known failed =>
    rw [found, Option.some.injEq] at known
    subst known
    rw [ended, LoadStage.finished.injEq] at failed
    exact .inl ⟨error, failed⟩
  | @answered other listing known answered unevicted =>
    rw [found, Option.some.injEq] at known
    subst known
    rw [ended, LoadStage.finished.injEq] at answered
    exact .inr ⟨⟨listing, answered⟩, unevicted⟩

/-- An own step changes nothing if the load brings no entries in the end. -/
theorem Remains.spares {refuses unreadable : Bool} (late : List Event)
    (remains : Remains versions name traffic (.advance name refuses unreadable :: late))
    (fruitless : ∀ last listing,
      ((.advance name refuses unreadable :: late).foldl (step versions) traffic).loads.lookup name =
        some last → last.stage ≠ .finished (.ok listing)) (key : PageKey) :
    Spares versions traffic (.advance name refuses unreadable) key := by
  obtain ⟨load, found⟩ := remains.head
  obtain ⟨stage, moved, move⟩ := moves_step versions found refuses unreadable
  refine ⟨move.listing?_eq ?_ key, move.generation_eq key⟩
  rintro listing rfl
  obtain ⟨last, now, ended⟩ := remains.2.finished moved rfl
  exact fruitless last listing now ended

theorem Accounts.spares_of_ne (accounts : traffic.Accounts) {key path : PageKey} (apart : key ≠ path)
    {event : Event} (eviction : event = .invalidate path ∨ ∃ version, event = .deliver path version) :
    Spares versions traffic event key := by
  rcases eviction with rfl | ⟨version, rfl⟩
  · exact ⟨(Cache.listing?_evict ..).trans (if_neg apart),
      (Cache.generation_evict ..).trans (if_neg apart)⟩
  · have untold : key ∉ traffic.store.watcher.notices path :=
      fun told => apart (accounts.notices told)
    unfold Spares
    have steps := steps_step versions traffic (.deliver path version)
    generalize traffic.step versions (.deliver path version) = next at steps ⊢
    cases steps with
    | idle _ => exact ⟨rfl, rfl⟩
    | delivered _ =>
      rw [deliver_cache, Cache.listing?_foldl_evict, if_neg untold, Cache.generation_foldl_evict,
        List.count_eq_zero.mpr untold]
      exact ⟨rfl, rfl⟩

theorem spares_drop (versions : Versions) (traffic : Traffic) (name : Nat) (key : PageKey) :
    Spares versions traffic (.drop name) key := by
  unfold Spares
  have steps := steps_step versions traffic (.drop name)
  generalize traffic.step versions (.drop name) = next at steps ⊢
  cases steps <;> exact ⟨rfl, rfl⟩

/-- A load that finds nothing kept notes the generation of its page. If it returns entries, the page was
not evicted while it was under way. If the page was, the load ends in an error, at the latest with its
eighth step. All steps of a load that brings no entries, and the dropping of any load, leave the entries
and generations of every page alone; and an eviction leaves those of all other pages alone. -/
theorem eviction_beats_load (versions : Versions) (before during : List Event) (name : Nat) (load : Load)
    (refuses unreadable : Bool) (found : (run versions before).loads.lookup name = some load)
    (fresh : load.stage = .started)
    (missed : (run versions before).store.cache.listing? load.key = none)
    (remains : Remains versions name (run versions before)
      (.advance name refuses unreadable :: during)) :
    let events := .advance name refuses unreadable :: during
    let evicted := evictionsDuring versions name load.key (run versions before) events
    (∃ last, (run versions (before ++ events)).loads.lookup name = some last ∧ last.key = load.key ∧
      (∀ listing, last.result? = some (.ok listing) → evicted = 0) ∧
      (0 < evicted → Load.stepLimit ≤ ownSteps name events →
        ∃ error, last.result? = some (.error error)) ∧
      ((∀ listing, last.result? ≠ some (.ok listing)) →
        ∀ early late own other, events = early ++ .advance name own other :: late →
          ∀ key, Spares versions (run versions (before ++ early)) (.advance name own other) key)) ∧
    ∀ (others : List Event) (key : PageKey),
      (∀ other, Spares versions (run versions others) (.drop other) key) ∧
      ∀ (path : PageKey) (version : Nat), key ≠ path →
        Spares versions (run versions others) (.invalidate path) key ∧
          Spares versions (run versions others) (.deliver path version) key := by
  intro events evicted
  have course : Course (run versions (before ++ events)) name load.key
      ((run versions before).store.cache.generation load.key) evicted :=
    run_append versions before events ▸ remains.course found fresh missed
  obtain ⟨last, now, page, fewer⟩ := remains.remaining_le found
  refine ⟨⟨last, run_append versions before events ▸ now, page, ?_, ?_, ?_⟩, ?_⟩
  · intro listing returned
    rcases course.outcome (run_append versions before events ▸ now)
      (Load.result?_eq_some.mp returned) with ⟨error, failed⟩ | ⟨_, unevicted⟩
    · cases failed
    · exact unevicted
  · intro beaten enough
    have bound : load.stage.remaining = Load.stepLimit := by
      rw [fresh]
      rfl
    have none : last.stage.remaining = 0 := by
      change Load.stepLimit ≤ ownSteps name (.advance name refuses unreadable :: during) at enough
      omega
    -- No steps remain, so the load has ended, and an eviction leaves it no entries.
    obtain ⟨result, ended⟩ := LoadStage.finished_of_remaining none
    rcases course.outcome (run_append versions before events ▸ now) ended with
      ⟨error, rfl⟩ | ⟨_, unevicted⟩
    · exact ⟨error, Load.result?_eq_some.mpr ended⟩
    · omega
  · intro fruitless early late own other split key
    have whole : events.foldl (step versions) (run versions before) =
        (.advance name own other :: late).foldl (step versions) (run versions (before ++ early)) := by
      rw [split, List.foldl_append, run_append]
    rw [run_append]
    refine Remains.spares late (Remains.later (split ▸ remains)) ?_ key
    intro final listing known answered
    rw [← run_append, ← whole, now, Option.some.injEq] at known
    subst known
    exact fruitless listing (Load.result?_eq_some.mpr answered)
  · intro others key
    refine ⟨fun other => spares_drop versions (run versions others) other key, ?_⟩
    intro path version apart
    have accounts := accounts_run versions others
    exact ⟨accounts.spares_of_ne apart (.inl rfl), accounts.spares_of_ne apart (.inr ⟨version, rfl⟩)⟩

/-- A load that has noted the generation of its page and watches it, and is told of a rewrite before it
reads the page. -/
def rewrittenMeanwhile (key : PageKey) : List Event :=
  List.replicate 3 (.advance 0 false false) ++ [.rewrite key, .deliver key 1] ++
    List.replicate 4 (.advance 0 false false)

theorem evictionsDuring_rewrittenMeanwhile {page : String} {entries : List Entry} (key : PageKey)
    (parsed : Page.entries page "a" = .ok entries) :
    evictionsDuring (fun _ _ => some page) 0 key (run (fun _ _ => some page) [.start 0 "a" key])
        (.advance 0 false false :: rewrittenMeanwhile key) = 1 ∧
      Remains (fun _ _ => some page) 0 (run (fun _ _ => some page) [.start 0 "a" key])
        (.advance 0 false false :: rewrittenMeanwhile key) := by
  simp [run, rewrittenMeanwhile, evictionsDuring, evictions, isUnderWay, Remains, List.replicate, step,
    start, advance, deliver, rewrite, surroundings, LoadStage.isFinished, Load.start, Load.advance,
    Load.note, Load.checkWatch, Load.settle, Load.publish, parsed, Keyed.insert, Store.empty,
    Store.notify, Cache.empty, Cache.listing?, Cache.isWatched, Cache.generation, Cache.record,
    Cache.evict, Watcher.empty, Watcher.subscribe, Watcher.notices]

theorem run_rewrittenMeanwhile {page : String} {entries : List Entry} (key : PageKey)
    (parsed : Page.entries page "a" = .ok entries) :
    (run (fun _ _ => some page) ([.start 0 "a" key] ++
        .advance 0 false false :: rewrittenMeanwhile key)).loads.lookup 0 =
      some ⟨"a", key, false, .finished (.error .superseded)⟩ := by
  simp [run, rewrittenMeanwhile, List.replicate, step, start, advance, deliver, rewrite, surroundings,
    Load.start, Load.advance, Load.note, Load.checkWatch, Load.settle, Load.publish, parsed, Keyed.insert,
    Store.empty, Store.notify, Cache.empty, Cache.listing?, Cache.isWatched, Cache.generation,
    Cache.record, Cache.evict, Watcher.empty, Watcher.subscribe, Watcher.notices]

/-- The load is told by its own subscription, and is superseded although it can read the page. -/
theorem eviction_beats_load_rewritten :
    Page.entries pageOnA "a" = .ok entriesOnA ∧
    ∃ last, (run (fun _ _ => some pageOnA) ([.start 0 "a" [.root, .name "page"]] ++
        .advance 0 false false :: rewrittenMeanwhile [.root, .name "page"])).loads.lookup 0 = some last ∧
      last.result? = some (.error .superseded) := by
  obtain ⟨once, remains⟩ := evictionsDuring_rewrittenMeanwhile [.root, .name "page"] entries_pageOnA
  obtain ⟨⟨last, found, _, _, beaten, _⟩, _⟩ :=
    eviction_beats_load (fun _ _ => some pageOnA) [.start 0 "a" [.root, .name "page"]]
      (rewrittenMeanwhile [.root, .name "page"]) 0 (Load.start "a" [.root, .name "page"] false)
      false false rfl rfl rfl remains
  have evicted : 0 < evictionsDuring (fun _ _ => some pageOnA) 0 [.root, .name "page"]
      (run (fun _ _ => some pageOnA) [.start 0 "a" [.root, .name "page"]])
      (.advance 0 false false :: rewrittenMeanwhile [.root, .name "page"]) := once ▸ Nat.one_pos
  obtain ⟨error, failed⟩ := beaten evicted (by decide)
  cases found.symm.trans (run_rewrittenMeanwhile [.root, .name "page"] entries_pageOnA)
  cases failed
  exact ⟨entries_pageOnA, _, found, rfl⟩

end Traffic

end RulesAssist.Coverage
