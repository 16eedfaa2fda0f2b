import RulesAssist.Proofs.Coverage.Freshness

/-! What is left of the subscriptions when the cache is closed.

At any time the live subscriptions are those that are recorded, those that loads hold for a moment, and
those that the closed cache has yet to release. A closed cache records none, so that when all loads have
ended and all handles are released nothing is watched, and no later load watches anything.
-/

set_option autoImplicit false

namespace RulesAssist.Coverage

namespace LoadStage

/-- The load has found its page unwatched, and has not come to the end of watching it. -/
def isWatching : LoadStage → Bool
  | .subscribing _ | .subscribed _ _ | .releasing _ _ _ => true
  | _ => false

theorem isWatching_of_isFinished {stage : LoadStage} (ended : stage.isFinished = true) :
    stage.isWatching = false := by
  cases stage with
  | finished result => rfl
  | _ => cases ended

end LoadStage

theorem Load.Moves.subscriptions_cases {load : Load} {surroundings : Surroundings} {store next : Store}
    {earlier stage : LoadStage} (move : load.Moves surroundings store earlier stage next) :
    next.cache.subscriptions = store.cache.subscriptions ∨
      ∃ handle, next.cache.subscriptions = Keyed.insert load.key handle store.cache.subscriptions := by
  cases move with
  | recorded _ _ => exact .inr ⟨_, rfl⟩
  | _ => exact .inl rfl

theorem Load.Moves.closed_eq {load : Load} {surroundings : Surroundings} {store next : Store}
    {earlier stage : LoadStage} (move : load.Moves surroundings store earlier stage next) :
    next.cache.closed = store.cache.closed := by
  cases move <;> rfl

theorem Load.Moves.quiet {load : Load} {surroundings : Surroundings} {store next : Store}
    {earlier stage : LoadStage} (move : load.Moves surroundings store earlier stage next)
    (closed : store.cache.closed = true) (unwatching : earlier.isWatching = false) :
    stage.isWatching = false ∧ next.watcher = store.watcher := by
  cases move with
  | shared opened _ | unwatched opened _ | recorded opened _ | kept _ _ opened =>
    rw [closed] at opened
    cases opened
  | refused _ | subscribed _ | unneeded _ | released => cases unwatching
  | _ => exact ⟨rfl, rfl⟩

namespace Traffic

theorem count_held (loads : List (Nat × Load)) (handle : Handle) :
    (loads.flatMap (·.2.handles)).count handle = holders loads handle := by
  induction loads with
  | nil => rfl
  | cons entry rest ih =>
    unfold holders Keyed.weight at ih ⊢
    rw [List.flatMap_cons, List.count_append, List.map_cons, List.sum_cons, ih]

theorem Accounts.live_perm {traffic : Traffic} (accounts : traffic.Accounts) :
    (traffic.store.watcher.live.map (·.handle)).Perm
      (traffic.store.cache.subscriptions.map (·.2) ++ traffic.loads.flatMap (·.2.handles) ++
        traffic.closing) := by
  apply List.perm_iff_count.mpr
  intro handle
  rw [accounts.counted, List.count_append, List.count_append, count_recorded, count_held]
  rfl

theorem nodup_subscriptions_step (versions : Versions) {traffic : Traffic}
    (distinct : (Keyed.keys traffic.store.cache.subscriptions).Nodup) (event : Event) :
    (Keyed.keys (traffic.step versions event).store.cache.subscriptions).Nodup := by
  apply store_step (fun store => (Keyed.keys store.cache.subscriptions).Nodup) distinct
  case moved =>
    intro _ _ _ load stage next _ move
    rcases move.subscriptions_cases with unchanged | ⟨handle, recorded⟩
    · exact unchanged ▸ distinct
    · exact recorded ▸ Keyed.nodup_keys_insert distinct _ _
  case notified =>
    intro path
    exact (Cache.foldl_evict_eq (traffic.store.watcher.notices path) traffic.store.cache).1 ▸ distinct
  case discarded => exact fun _ => distinct
  case closed => exact List.nodup_nil
  case released => exact fun _ => distinct

theorem nodup_subscriptions (versions : Versions) (events : List Event) :
    (Keyed.keys (run versions events).store.cache.subscriptions).Nodup :=
  @run_induction versions (fun traffic => (Keyed.keys traffic.store.cache.subscriptions).Nodup)
    List.nodup_nil (fun _ event distinct => nodup_subscriptions_step versions distinct event) events

theorem closed_step (versions : Versions) {traffic : Traffic}
    (closed : traffic.store.cache.closed = true) (event : Event) :
    (traffic.step versions event).store.cache.closed = true := by
  apply store_step (fun store => store.cache.closed = true) closed
  case moved => exact fun _ _ _ _ _ _ _ move => move.closed_eq.trans closed
  case notified => exact fun path => (Cache.foldl_evict_eq _ _).2.trans closed
  case discarded => exact fun _ => closed
  case closed => rfl
  case released => exact fun _ => closed

theorem closed_of_close (versions : Versions) {events : List Event} (closed : .close ∈ events) :
    (run versions events).store.cache.closed = true := by
  obtain ⟨before, after, rfl⟩ := List.append_of_mem closed
  have shut : ((run versions before).step versions .close).store.cache.closed = true := rfl
  rw [run, List.foldl_append, List.foldl_cons]
  exact @foldl_induction versions (fun traffic => traffic.store.cache.closed = true)
    (fun _ event closed => closed_step versions closed event) after _ shut

/-- The cache is closed, nothing is watched, and no load is about to watch anything. -/
structure Silent (traffic : Traffic) : Prop where
  closed : traffic.store.cache.closed = true
  unwatched : traffic.store.watcher.live = []
  settled : ∀ name load, traffic.loads.lookup name = some load → load.stage.isWatching = false

theorem Silent.step {versions : Versions} {traffic : Traffic} (silent : traffic.Silent)
    (event : Event) : (traffic.step versions event).Silent where
  closed := closed_step versions silent.closed event
  unwatched := by
    apply store_step (fun store => store.watcher.live = []) silent.unwatched
    case moved =>
      intro name _ _ load stage next found move
      have same := (move.quiet silent.closed (silent.settled name load found)).2
      exact (congrArg Watcher.live same).trans silent.unwatched
    case notified => exact fun _ => silent.unwatched
    case discarded => exact fun _ => silent.unwatched
    case closed => exact silent.unwatched
    case released =>
      intro handle
      simp [Store.release, Watcher.unsubscribe, silent.unwatched]
  settled := by
    intro name load after
    cases comes_step after with
    | stayed found _ => exact silent.settled name load found
    | started _ => rfl
    | @cancelled _ before found => exact silent.settled name before found
    | @moved _ _ _ before _ found move =>
      exact (move.quiet silent.closed (silent.settled name before found)).1

/-- When all that was under way has come to its end, a closed cache has released everything. -/
theorem Accounts.silent {traffic : Traffic} (accounts : traffic.Accounts)
    (closed : traffic.store.cache.closed = true) (released : traffic.closing = [])
    (ended : ∀ name load, traffic.loads.lookup name = some load →
      load.stage.isWatching = false) : traffic.Silent := by
  have held : traffic.loads.flatMap (·.2.handles) = [] := by
    apply List.flatMap_eq_nil_iff.mpr
    rintro ⟨name, load⟩ member
    have unwatching := ended name load (Keyed.lookup_of_mem accounts.distinct member)
    unfold Load.handles
    cases stage : load.stage <;> simp [stage, LoadStage.isWatching] at unwatching ⊢
  have live := accounts.live_perm
  rw [accounts.emptied closed, released, held] at live
  exact ⟨closed, List.map_eq_nil_iff.mp live.eq_nil, ended⟩

/-- Every recorded subscription is live, under its page; the live ones are the recorded ones, those that
loads hold before they record or release them, and those that the closed cache has yet to release; no
page is recorded twice and no handle for two pages; and only recorded pages have entries. Once the cache
was closed no page has entries, and once everything has ended nothing is watched, now and later. -/
theorem watch_accounts (versions : Versions) (events : List Event) :
    let traffic := run versions events
    (∀ key handle, (key, handle) ∈ traffic.store.cache.subscriptions →
      ⟨handle, key, key⟩ ∈ traffic.store.watcher.live) ∧
    (traffic.store.watcher.live.map (·.handle)).Perm
      (traffic.store.cache.subscriptions.map (·.2) ++ traffic.loads.flatMap (·.2.handles) ++
        traffic.closing) ∧
    (traffic.store.watcher.live.map (·.handle)).Nodup ∧
    (Keyed.keys traffic.store.cache.subscriptions).Nodup ∧
    (∀ key other handle, (key, handle) ∈ traffic.store.cache.subscriptions →
      (other, handle) ∈ traffic.store.cache.subscriptions → key = other) ∧
    (∀ key listing, traffic.store.cache.listing? key = some listing →
      ∃ handle, (key, handle) ∈ traffic.store.cache.subscriptions) ∧
    (.close ∈ events → (∀ key, traffic.store.cache.listing? key = none) ∧
      (traffic.closing = [] →
        (∀ name load, traffic.loads.lookup name = some load → load.stage.isFinished = true) →
        traffic.store.watcher.count = 0 ∧
          ∀ later, (run versions (events ++ later)).store.watcher.count = 0)) := by
  intro traffic
  have accounts : traffic.Accounts := accounts_run versions events
  have distinct : (Keyed.keys traffic.store.cache.subscriptions).Nodup :=
    nodup_subscriptions versions events
  have fresh : Fresh versions traffic := fresh_run versions events
  have recorded : ∀ key handle, (key, handle) ∈ traffic.store.cache.subscriptions →
      ⟨handle, key, key⟩ ∈ traffic.store.watcher.live := fun key handle member =>
    accounts.recorded key handle (Keyed.lookup_of_mem distinct member)
  refine ⟨recorded, accounts.live_perm, accounts.single, distinct, ?_, ?_, ?_⟩
  · intro key other handle one two
    -- A handle is that of one live subscription, which has one path.
    have same := List.inj_on_of_nodup_map accounts.single (recorded key handle one)
      (recorded other handle two) rfl
    exact congrArg Subscription.path same
  · intro key listing held
    obtain ⟨handle, found⟩ := Option.isSome_iff_exists.mp (fresh.kept key listing held).watched
    exact ⟨handle, Keyed.mem_of_lookup found⟩
  · intro shut
    have closed : traffic.store.cache.closed = true := closed_of_close versions shut
    refine ⟨?_, ?_⟩
    · intro key
      apply Option.eq_none_iff_forall_ne_some.mpr
      intro listing held
      have opened := (fresh.kept key listing held).opened
      rw [closed] at opened
      cases opened
    · intro released ended
      have silent : traffic.Silent := accounts.silent closed released fun name load found =>
        LoadStage.isWatching_of_isFinished (ended name load found)
      refine ⟨congrArg List.length silent.unwatched, ?_⟩
      intro later
      rw [run_append]
      exact congrArg List.length (foldl_induction (fun _ event silent => silent.step event) later
        silent).unwatched

def attempts (name count : Nat) : List Event :=
  List.replicate count (.advance name false true)

/-- Two loads subscribe to the same page. The first one records its subscription, and the cache is closed
before the second one gets to that. -/
def closedBetween (key : PageKey) : List Event :=
  .start 0 "a" key :: .start 1 "a" key :: attempts 0 3 ++ attempts 1 3 ++ attempts 0 1 ++
    .close :: attempts 0 2 ++ attempts 1 4 ++ [.release]

theorem run_closedBetween (versions : Versions) (key : PageKey) :
    (run versions (closedBetween key)).loads =
        [(0, ⟨"a", key, false, .finished (.error .unreadable)⟩),
          (1, ⟨"a", key, false, .finished (.error .unreadable)⟩)] ∧
      (run versions (closedBetween key)).closing = [] := by
  simp [run, closedBetween, attempts, List.replicate, step, start, advance, close, surroundings, Load.start,
    Load.advance, Load.note, Load.checkWatch, Load.settle, Keyed.insert, List.lookup_cons,
    Store.empty, Store.release, Cache.empty, Cache.listing?, Cache.isWatched, Cache.generation,
    Cache.record, Cache.close, Watcher.empty, Watcher.subscribe, Watcher.unsubscribe]

/-- In the end both subscriptions are released, and a third load makes none. -/
theorem watch_accounts_closed :
    (run (fun _ _ => none) (closedBetween [.root, .name "page"])).store.watcher.count = 0 ∧
      (run (fun _ _ => none) (closedBetween [.root, .name "page"] ++
        .start 2 "a" [.root, .name "page"] :: attempts 2 3)).store.watcher.count = 0 := by
  obtain ⟨loads, released⟩ := run_closedBetween (fun _ _ => none) [.root, .name "page"]
  obtain ⟨_, _, _, _, _, _, after⟩ :=
    watch_accounts (fun _ _ => none) (closedBetween [.root, .name "page"])
  obtain ⟨none, later⟩ := (after (by simp [closedBetween])).2 released (by
    intro name load found
    rw [loads] at found
    rcases List.mem_pair.mp (Keyed.mem_of_lookup found) with same | same <;> cases same <;> rfl)
  exact ⟨none, later _⟩

end Traffic

end RulesAssist.Coverage
