import RulesAssist.Proofs.Coverage.Origins
import RulesAssist.Proofs.Coverage.Subscriptions

/-! Kept entries are those of the page's current version, or word of a rewrite is on its way.

A load notes the generation of its page before it watches the page, and watches it before it reads it.
From then on every rewrite either is still to be delivered or has raised the generation, and a load
that finds the generation raised keeps nothing.
-/

set_option autoImplicit false

namespace RulesAssist.Coverage

namespace LoadStage

def generation? : LoadStage → Option Nat
  | .started | .finished _ => none
  | .noted generation | .subscribing generation | .subscribed generation _
  | .releasing generation _ _ | .prepared generation _ | .fetched generation _ _
  | .read generation _ _ => some generation

def isWatched : LoadStage → Bool
  | .releasing _ _ watched | .prepared _ watched | .fetched _ watched _ | .read _ watched _ => watched
  | _ => false

def text? : LoadStage → Option String
  | .fetched _ _ content => content
  | .read _ _ text => some text
  | _ => none

end LoadStage

namespace Traffic

/-- Who keeps entries of the page is told of rewrites, or nobody keeps any. -/
def Guarded (traffic : Traffic) (key : PageKey) : Prop :=
  traffic.store.cache.closed = true ∨ traffic.store.cache.isWatched key = true

/-- The text is that of the current version, or of one before a rewrite that nobody was told of. -/
def Current (versions : Versions) (traffic : Traffic) (key : PageKey) (text : String) : Prop :=
  ∃ version, version ≤ traffic.current key ∧ versions key version = some text ∧
    (version = traffic.current key ∨ ∃ later, version < later ∧ (key, later) ∈ traffic.inFlight)

/-- The second state comes after the first one. What is read under guard stays current unless the
generation rises. -/
structure Later (versions : Versions) (traffic next : Traffic) : Prop where
  generation : ∀ key, traffic.store.cache.generation key ≤ next.store.cache.generation key
  guarded : ∀ key, traffic.Guarded key → next.Guarded key
  opened : next.store.cache.closed = false → traffic.store.cache.closed = false
  current : ∀ key text, next.store.cache.closed = false →
    next.store.cache.generation key = traffic.store.cache.generation key →
    traffic.Guarded key → traffic.Current versions key text → next.Current versions key text

structure Informed (versions : Versions) (traffic : Traffic) (key : PageKey) (stage : LoadStage) :
    Prop where
  noted : ∀ generation, stage.generation? = some generation →
    generation ≤ traffic.store.cache.generation key
  guarded : stage.isWatched = true → traffic.Guarded key
  current : ∀ generation text, stage.generation? = some generation → stage.isWatched = true →
    stage.text? = some text → traffic.store.cache.generation key = generation →
    traffic.store.cache.closed = false → traffic.Current versions key text

theorem Informed.later {versions : Versions} {traffic next : Traffic} {key : PageKey}
    {stage : LoadStage} (informed : Informed versions traffic key stage)
    (later : Later versions traffic next) : Informed versions next key stage where
  noted := by
    intro generation noted
    exact Nat.le_trans (informed.noted generation noted) (later.generation key)
  guarded := by
    intro watched
    exact later.guarded key (informed.guarded watched)
  current := by
    intro generation text noted watched read same opened
    -- The generation has not been raised between, since it is the one that was noted.
    have unraised : traffic.store.cache.generation key = generation := by
      have before := informed.noted generation noted
      have after := later.generation key
      omega
    apply later.current key text opened (same.trans unraised.symm) (informed.guarded watched)
    exact informed.current generation text noted watched read unraised (later.opened opened)

theorem Informed.of_unread {versions : Versions} {traffic : Traffic} {key : PageKey}
    {stage : LoadStage} (noted : ∀ generation, stage.generation? = some generation →
      generation ≤ traffic.store.cache.generation key)
    (guarded : stage.isWatched = true → traffic.Guarded key) (unread : stage.text? = none) :
    Informed versions traffic key stage where
  noted := noted
  guarded := guarded
  current := by
    intro generation text _ _ read
    rw [unread] at read
    cases read

theorem informed_started (versions : Versions) (traffic : Traffic) (key : PageKey) :
    Informed versions traffic key .started :=
  .of_unread nofun nofun rfl

theorem informed_finished {versions : Versions} {traffic : Traffic} {key : PageKey}
    {result : Except LoadError Listing} : Informed versions traffic key (.finished result) := by
  refine .of_unread ?_ ?_ rfl
  · intro generation noted
    cases noted
  · intro watched
    cases watched

/-- Some load has read the listing for its own file from a text that is current, and the page is
watched. -/
structure Vouched (versions : Versions) (traffic : Traffic) (key : PageKey) (listing : Listing) :
    Prop where
  opened : traffic.store.cache.closed = false
  watched : traffic.store.cache.isWatched key = true
  published : ∃ origin ∈ traffic.answers, ∃ text, origin.ReadFrom text ∧ origin.key = key ∧
    origin.listing = listing ∧ traffic.Current versions key text

/-- Whatever is kept is vouched for, and every load knows what it must know. -/
structure Fresh (versions : Versions) (traffic : Traffic) : Prop where
  kept : ∀ key listing, traffic.store.cache.listing? key = some listing →
    Vouched versions traffic key listing
  informed : ∀ name load, traffic.loads.lookup name = some load →
    Informed versions traffic load.key load.stage

theorem fresh_start (versions : Versions) : Fresh versions start where
  kept := by
    intro key listing held
    cases held
  informed := by
    intro name load found
    cases found

theorem Later.of_same {versions : Versions} {traffic next : Traffic}
    (generation : ∀ key, next.store.cache.generation key = traffic.store.cache.generation key)
    (watched : ∀ key, traffic.store.cache.isWatched key = true → next.store.cache.isWatched key = true)
    (closed : next.store.cache.closed = traffic.store.cache.closed)
    (current : next.current = traffic.current) (inFlight : next.inFlight = traffic.inFlight) :
    Later versions traffic next where
  generation := by
    intro key
    exact Nat.le_of_eq (generation key).symm
  guarded := by
    intro key guarded
    unfold Guarded at guarded ⊢
    rw [closed]
    exact guarded.imp_right (watched key)
  opened := by
    rw [closed]
    exact id
  current := by
    intro key text _ _ _ now
    unfold Current at now ⊢
    rw [current, inFlight]
    exact now

theorem Vouched.later {versions : Versions} {traffic next : Traffic} {key : PageKey}
    {listing : Listing} (vouched : Vouched versions traffic key listing)
    (later : Later versions traffic next) (answers : ∀ answer ∈ traffic.answers, answer ∈ next.answers)
    (closed : next.store.cache.closed = traffic.store.cache.closed)
    (unraised : next.store.cache.generation key = traffic.store.cache.generation key) :
    Vouched versions next key listing := by
  obtain ⟨opened, watched, origin, member, text, read, page, same, current⟩ := vouched
  have guarded : traffic.Guarded key := .inr watched
  have still := closed.trans opened
  refine ⟨still, ?_, origin, answers origin member, text, read, page, same,
    later.current key text still unraised guarded current⟩
  -- An open cache keeps its guard only by watching the page.
  rcases later.guarded key guarded with closed | watched
  · rw [still] at closed
    cases closed
  · exact watched

/-- Entries stay fresh that are kept from before and whose page was not evicted, and so do new ones
that are vouched for. -/
theorem Fresh.later {versions : Versions} {traffic next : Traffic} (fresh : Fresh versions traffic)
    (later : Later versions traffic next) (answers : ∀ answer ∈ traffic.answers, answer ∈ next.answers)
    (kept : ∀ key listing, next.store.cache.listing? key = some listing →
      (traffic.store.cache.listing? key = some listing ∧
        next.store.cache.closed = traffic.store.cache.closed ∧
        next.store.cache.generation key = traffic.store.cache.generation key) ∨
      Vouched versions next key listing)
    (informed : ∀ name load, next.loads.lookup name = some load →
      traffic.loads.lookup name = some load ∨ Informed versions next load.key load.stage) :
    Fresh versions next where
  kept := by
    intro key listing held
    rcases kept key listing held with ⟨before, closed, unraised⟩ | now
    · exact (fresh.kept key listing before).later later answers closed unraised
    · exact now
  informed := by
    intro name load found
    rcases informed name load found with before | now
    · exact (fresh.informed name load before).later later
    · exact now

theorem later_of_moves {versions : Versions} {traffic : Traffic} {load : Load}
    {surroundings : Surroundings} {earlier stage : LoadStage} {store : Store}
    (move : load.Moves surroundings traffic.store earlier stage store) (loads : List (Nat × Load))
    (answers : List Answer) : Later versions traffic { traffic with store, loads, answers } := by
  cases move with
  | recorded _ _ =>
    -- One more page is watched, and none is forgotten.
    refine .of_same (fun _ => rfl) ?_ rfl rfl rfl
    intro key watched
    rw [Cache.isWatched_record, watched, Bool.or_true]
  | _ => exact .of_same (fun _ => rfl) (fun _ watched => watched) rfl rfl rfl

theorem informed_of_moves {versions : Versions} {traffic : Traffic} {load : Load}
    {refuses unreadable : Bool} {earlier stage : LoadStage} {store : Store}
    (move : load.Moves (traffic.surroundings versions load.key refuses unreadable) traffic.store earlier
      stage store) (informed : Informed versions traffic load.key earlier) (loads : List (Nat × Load))
    (answers : List Answer) :
    Informed versions { traffic with store, loads, answers } load.key stage := by
  have later : Later versions traffic { traffic with store, loads, answers } :=
    later_of_moves move loads answers
  cases move with
  | found _ | withdrawn _ | abandoned _ | unreadable _ | rejected _ | superseded _ _ | kept _ _ _
  | answered _ _ _ | rested => exact informed_finished
  | noted _ =>
    refine .of_unread ?_ nofun rfl
    rintro generation ⟨⟩
    exact Nat.le_refl _
  | barred _ | unwatched _ _ | refused _ | subscribed _ =>
    exact .of_unread informed.noted nofun rfl
  | shared _ watched => exact .of_unread informed.noted (fun _ => .inr watched) rfl
  | recorded _ _ =>
    refine .of_unread informed.noted (fun _ => .inr ?_) rfl
    rw [Cache.isWatched_record, beq_self_eq_true, Bool.true_or]
  | unneeded unwanted =>
    refine .of_unread informed.noted (fun opened => .inr ?_) rfl
    rcases unwanted with closed | watched
    · rw [LoadStage.isWatched, closed] at opened
      cases opened
    · exact watched
  | released => exact .of_unread informed.noted informed.guarded rfl
  | fetched _ =>
    -- What is read now is the current version.
    refine ⟨informed.noted, informed.guarded, ?_⟩
    intro generation text _ _ read _ _
    refine ⟨traffic.current load.key, Nat.le_refl _, ?_, .inl rfl⟩
    unfold LoadStage.text? surroundings at read
    cases unreadable with
    | true => cases read
    | false => exact read
  | read _ =>
    have still := informed.later later
    exact ⟨still.noted, still.guarded, still.current⟩

theorem vouched_publish {versions : Versions} {traffic : Traffic} {name : Nat} {load : Load}
    {generation : Nat} {text : String} {entries : List Entry}
    (informed : Informed versions traffic load.key (.read generation true text))
    (parsed : Page.entries text load.file = .ok entries)
    (unraised : traffic.store.cache.generation load.key = generation)
    (opened : traffic.store.cache.closed = false) :
    Vouched versions { traffic with
      store := { traffic.store with
        fresh := traffic.store.fresh + 1
        cache := traffic.store.cache.keep load.key ⟨traffic.store.fresh, entries⟩ }
      loads := Keyed.insert name
        { load with stage := .finished (.ok ⟨traffic.store.fresh, entries⟩) } traffic.loads
      answers := traffic.answers ++
        [⟨load.file, load.key, some text, ⟨traffic.store.fresh, entries⟩⟩] }
      load.key ⟨traffic.store.fresh, entries⟩ := by
  refine ⟨opened, ?_, _, List.mem_append_right _ (List.mem_singleton.mpr rfl), text, ⟨rfl, parsed⟩,
    rfl, rfl, informed.current generation text rfl rfl rfl unraised opened⟩
  rcases informed.guarded rfl with closed | watched
  · rw [opened] at closed
    cases closed
  · exact watched

theorem Fresh.moved {versions : Versions} {traffic : Traffic} (fresh : Fresh versions traffic)
    {name : Nat} {load : Load} (found : traffic.loads.lookup name = some load)
    {refuses unreadable : Bool} {stage : LoadStage} {store : Store}
    (move : load.Moves (traffic.surroundings versions load.key refuses unreadable) traffic.store
      load.stage stage store) :
    Fresh versions { traffic with
      store
      loads := Keyed.insert name { load with stage } traffic.loads
      answers := traffic.answers ++ load.answered load.stage stage } := by
  have informed := fresh.informed name load found
  generalize load.stage = earlier at move informed
  refine fresh.later (later_of_moves move _ _) (fun _ member => List.mem_append_left _ member) ?_ ?_
  · intro key listing held
    cases move with
    | kept parsed unraised opened =>
      -- No other move keeps entries.
      rw [Cache.listing?_keep] at held
      split at held
      · rename_i same
        cases held
        subst same
        exact .inr (vouched_publish informed parsed unraised opened)
      · exact .inl ⟨held, rfl, rfl⟩
    | _ => exact .inl ⟨held, rfl, rfl⟩
  · intro wanted other now
    apply (lookup_insert_or now).imp_right
    rintro rfl
    exact informed_of_moves move informed _ _

theorem later_deliver {versions : Versions} {traffic : Traffic} (accounts : traffic.Accounts)
    (key : PageKey) (version : Nat) : Later versions traffic (traffic.deliver key version) := by
  obtain ⟨subscriptions, closed⟩ :=
    Cache.foldl_evict_eq (traffic.store.watcher.notices key) traffic.store.cache
  have raised := Cache.generation_foldl_evict (traffic.store.watcher.notices key) traffic.store.cache
  refine ⟨?_, ?_, ?_, ?_⟩
  · intro other
    rw [deliver_cache, raised]
    exact Nat.le_add_right ..
  · intro other guarded
    unfold Guarded Cache.isWatched at guarded ⊢
    rw [deliver_cache, subscriptions, closed]
    exact guarded
  · intro opened
    rw [deliver_cache, closed] at opened
    exact opened
  · intro other text opened unraised guarded current
    rw [deliver_cache, closed] at opened
    rw [deliver_cache, raised] at unraised
    obtain ⟨found, bound, text, newest⟩ := current
    refine ⟨found, bound, text, newest.imp_right ?_⟩
    rintro ⟨later, after, sent⟩
    refine ⟨later, after, (List.mem_erase_of_ne ?_).mpr sent⟩
    rintro ⟨⟩
    -- The page is watched, so its subscription has heard of the rewrite.
    rcases guarded with gone | watched
    · rw [opened] at gone
      cases gone
    · obtain ⟨handle, live⟩ := accounts.live_of_isWatched watched
      have told : key ∈ traffic.store.watcher.notices key :=
        List.mem_map.mpr ⟨_, List.mem_filter.mpr ⟨live, by simp⟩, rfl⟩
      have counted := List.count_pos_iff.mpr told
      omega

theorem later_rewrite {versions : Versions} {traffic : Traffic} (key : PageKey) :
    Later versions traffic (traffic.rewrite key) where
  generation := fun _ => Nat.le_refl _
  guarded := fun _ guarded => guarded
  opened := id
  current := by
    intro other text _ _ _ current
    obtain ⟨version, bound, found, newest⟩ := current
    unfold Current Traffic.rewrite
    by_cases same : other = key
    · subst same
      -- Whatever was current, word of this rewrite is in flight now.
      refine ⟨version, by simp only [if_true]; omega, found, .inr ?_⟩
      rcases newest with now | ⟨later, after, sent⟩
      · exact ⟨traffic.current other + 1, by omega, List.mem_cons_self ..⟩
      · exact ⟨later, after, List.mem_cons_of_mem _ sent⟩
    · refine ⟨version, by simpa only [same, if_false] using bound, found, ?_⟩
      rcases newest with now | ⟨later, after, sent⟩
      · exact .inl (by simpa only [same, if_false] using now)
      · exact .inr ⟨later, after, List.mem_cons_of_mem _ sent⟩

theorem later_invalidate {versions : Versions} {traffic : Traffic} (key : PageKey) :
    Later versions traffic { traffic with store := traffic.store.discard key } where
  generation := by
    intro other
    rw [discard_cache, Cache.generation_evict]
    split
    · rename_i same
      rw [same]
      exact Nat.le_succ _
    · exact Nat.le_refl _
  guarded := fun _ guarded => guarded
  opened := id
  current := fun _ _ _ _ _ current => current

theorem later_close (versions : Versions) (traffic : Traffic) : Later versions traffic traffic.close where
  generation := fun _ => Nat.le_refl _
  guarded := fun _ _ => .inl rfl
  opened := nofun
  current := nofun

/-- Only the loads have changed. -/
theorem Fresh.of_loads {versions : Versions} {traffic : Traffic} (fresh : Fresh versions traffic)
    (loads : List (Nat × Load)) (informed : ∀ name load, loads.lookup name = some load →
      traffic.loads.lookup name = some load ∨ Informed versions traffic load.key load.stage) :
    Fresh versions { traffic with loads } := by
  have later : Later versions traffic { traffic with loads } :=
    .of_same (fun _ => rfl) (fun _ => id) rfl rfl rfl
  exact fresh.later later (fun _ => id) (fun _ _ held => .inl ⟨held, rfl, rfl⟩)
    fun name load found => (informed name load found).imp_right fun now => now.later later

theorem Fresh.step {versions : Versions} {traffic : Traffic} (accounts : traffic.Accounts)
    (fresh : Fresh versions traffic) (event : Event) : Fresh versions (traffic.step versions event) := by
  have steps := steps_step versions traffic event
  generalize traffic.step versions event = next at steps ⊢
  cases steps with
  | idle _ => exact fresh
  | started _ =>
    refine fresh.of_loads _ fun wanted other now => (lookup_insert_or now).imp_right ?_
    rintro rfl
    exact informed_started versions _ _
  | advanced found move => exact fresh.moved found move
  | @cancelled name load found =>
    refine fresh.of_loads _ fun wanted other now => (lookup_insert_or now).imp_right ?_
    rintro rfl
    exact fresh.informed name load found
  | dropped _ _ => exact fresh.of_loads _ fun _ _ now => .inl (Keyed.lookup_of_erase now).2
  | @rewritten key =>
    exact fresh.later (later_rewrite key) (fun _ => id) (fun _ _ held => .inl ⟨held, rfl, rfl⟩)
      fun _ _ found => .inl found
  | @delivered key version _ =>
    refine fresh.later (later_deliver accounts key version) (fun _ => id) ?_ fun _ _ found => .inl found
    intro wanted listing held
    rw [deliver_cache, Cache.listing?_foldl_evict] at held
    split at held
    · cases held
    · rename_i untold
      -- What is still kept was not evicted, so nobody was told of it.
      refine .inl ⟨held, (Cache.foldl_evict_eq _ _).2, ?_⟩
      rw [deliver_cache, Cache.generation_foldl_evict, List.count_eq_zero.mpr untold, Nat.add_zero]
  | @invalidated key =>
    refine fresh.later (later_invalidate key) (fun _ => id) ?_ fun _ _ found => .inl found
    intro wanted listing held
    rw [discard_cache, Cache.listing?_evict] at held
    split at held
    · cases held
    · rename_i other
      refine .inl ⟨held, rfl, ?_⟩
      rw [discard_cache, Cache.generation_evict, if_neg other]
  | closed =>
    refine fresh.later (later_close versions traffic) (fun _ => id) ?_
      fun _ _ found => .inl found
    intro key listing held
    cases held
  | released _ =>
    exact fresh.later (.of_same (fun _ => rfl) (fun _ => id) rfl rfl rfl) (fun _ => id)
      (fun _ _ held => .inl ⟨held, rfl, rfl⟩) fun _ _ found => .inl found

theorem fresh_run (versions : Versions) (events : List Event) : Fresh versions (run versions events) := by
  -- Freshness rests on the accounts, so both are carried along the run.
  have both : (run versions events).Accounts ∧ Fresh versions (run versions events) := by
    refine @run_induction versions (fun traffic => traffic.Accounts ∧ Fresh versions traffic)
      ⟨accounts_start, fresh_start versions⟩ ?_ events
    rintro traffic event ⟨accounts, fresh⟩
    exact ⟨accounts.step event, fresh.step accounts event⟩
  exact both.2

/-- Entries that are kept were read, by a load for its own file, from some version of their page. That
version is the current one, or word of a rewrite after it is still in flight. -/
theorem kept_listing_current (versions : Versions) (events : List Event) (key : PageKey)
    (listing : Listing) (held : (run versions events).store.cache.listing? key = some listing) :
    ∃ origin ∈ (run versions events).answers, origin.key = key ∧ origin.listing = listing ∧
      ∃ version text, version ≤ (run versions events).current key ∧
        versions key version = some text ∧ origin.source = some text ∧
        Page.entries text origin.file = .ok listing.content ∧
        (version = (run versions events).current key ∨
          ∃ later, version < later ∧ (key, later) ∈ (run versions events).inFlight) := by
  obtain ⟨_, _, origin, member, text, ⟨source, parsed⟩, page, same, version, bound, found, newest⟩ :=
    (fresh_run versions events).kept key listing held
  exact ⟨origin, member, page, same, version, text, bound, found, source, same ▸ parsed, newest⟩

def readableOnce (page : String) : Versions :=
  fun _ version => if version = 0 then some page else none

def readThenRewritten (key : PageKey) : List Event :=
  .start 0 "a" key :: List.replicate 7 (.advance 0 false false) ++ [.rewrite key]

theorem run_readThenRewritten {page : String} {entries : List Entry} (key : PageKey)
    (parsed : Page.entries page "a" = .ok entries) :
    (run (readableOnce page) (readThenRewritten key)).store.cache.listing? key =
        some ⟨0, entries⟩ ∧
      (run (readableOnce page) (readThenRewritten key)).current key = 1 := by
  simp [run, readableOnce, readThenRewritten, List.replicate, step, start, advance, rewrite,
    surroundings, Load.start, Load.advance, Load.note, Load.checkWatch, Load.settle, Load.publish,
    parsed, Keyed.insert, Store.empty, Cache.empty, Cache.listing?, Cache.isWatched,
    Cache.generation, Cache.record, Cache.keep, Watcher.subscribe]

/-- The entries outlive the version that they were read from only until word of its end arrives. -/
theorem kept_listing_current_rewritten :
    (run (readableOnce pageOnA) (readThenRewritten [.root, .name "page"])).store.cache.listing?
        [.root, .name "page"] = some ⟨0, entriesOnA⟩ ∧
      ∃ later, 0 < later ∧ ([.root, .name "page"], later) ∈
        (run (readableOnce pageOnA) (readThenRewritten [.root, .name "page"])).inFlight := by
  obtain ⟨held, newer⟩ := run_readThenRewritten [.root, .name "page"] entries_pageOnA
  obtain ⟨origin, _, _, _, version, text, _, found, _, _, newest⟩ :=
    kept_listing_current (readableOnce pageOnA) (readThenRewritten [.root, .name "page"])
      [.root, .name "page"] ⟨0, entriesOnA⟩ held
  have first : version = 0 := by
    unfold readableOnce at found
    split at found
    · assumption
    · cases found
  subst first
  rcases newest with now | sent
  · rw [newer] at now
    cases now
  · exact ⟨held, sent⟩

end Traffic

end RulesAssist.Coverage
