import RulesAssist.Proofs.Coverage.Traffic
import RulesAssist.Proofs.Keyed

/-! Who answers for the subscriptions that are live.

Every live subscription has exactly one owner: the page that it is recorded for, a load that has made
it and not yet recorded or released it, or the closed cache that still has to release it.
-/

set_option autoImplicit false

namespace RulesAssist.Coverage

theorem count_handle_subscribe (watcher : Watcher PageKey) (key : PageKey) (handle : Handle) :
    ((watcher.subscribe key key).2.live.map (·.handle)).count handle =
      (watcher.live.map (·.handle)).count handle + [watcher.last + 1].count handle := by
  simp [Watcher.subscribe, List.count_append]

theorem count_handle_unsubscribe (watcher : Watcher PageKey) (gone handle : Handle) :
    ((watcher.unsubscribe gone).live.map (·.handle)).count handle =
      if handle = gone then 0 else (watcher.live.map (·.handle)).count handle := by
  have filtered : (watcher.unsubscribe gone).live.map (·.handle) =
      (watcher.live.map (·.handle)).filter (· ≠ gone) := by
    simp only [Watcher.unsubscribe, List.filter_map]
    rfl
  rw [filtered]
  split
  · rename_i same
    subst same
    exact List.count_eq_zero.mpr (by simp)
  · rename_i other
    exact List.count_filter (by simpa using other)

namespace Traffic

def holders (loads : List (Nat × Load)) (handle : Handle) : Nat :=
  Keyed.weight (fun load : Load => load.handles.count handle) loads

def records (subscriptions : List (PageKey × Handle)) (handle : Handle) : Nat :=
  Keyed.weight (fun recorded => [recorded].count handle) subscriptions

theorem records_pos {subscriptions : List (PageKey × Handle)} {key : PageKey} {handle : Handle}
    (recorded : subscriptions.lookup key = some handle) : 0 < records subscriptions handle := by
  have weighs := Keyed.le_weight recorded fun recorded => [recorded].count handle
  rw [List.count_singleton_self] at weighs
  exact weighs

theorem holders_pos {loads : List (Nat × Load)} {name : Nat} {load : Load} {handle : Handle}
    (found : loads.lookup name = some load) (holds : handle ∈ load.handles) :
    0 < holders loads handle :=
  Nat.lt_of_lt_of_le (List.count_pos_iff.mpr holds)
    (Keyed.le_weight found fun load : Load => load.handles.count handle)

def owners (traffic : Traffic) (handle : Handle) : Nat :=
  records traffic.store.cache.subscriptions handle + holders traffic.loads handle +
    traffic.closing.count handle

/-- Subscriptions and their owners agree, one to one, and a cache that is closed records nothing. -/
structure Accounts (traffic : Traffic) : Prop where
  distinct : (Keyed.keys traffic.loads).Nodup
  counted : ∀ handle, (traffic.store.watcher.live.map (·.handle)).count handle = traffic.owners handle
  single : (traffic.store.watcher.live.map (·.handle)).Nodup
  bounded : ∀ subscription ∈ traffic.store.watcher.live,
    subscription.handle ≤ traffic.store.watcher.last
  told : ∀ subscription ∈ traffic.store.watcher.live, subscription.notice = subscription.path
  recorded : ∀ key handle, traffic.store.cache.subscriptions.lookup key = some handle →
    ⟨handle, key, key⟩ ∈ traffic.store.watcher.live
  held : ∀ name load generation handle, traffic.loads.lookup name = some load →
    load.stage = .subscribed generation handle →
    ⟨handle, load.key, load.key⟩ ∈ traffic.store.watcher.live
  emptied : traffic.store.cache.closed = true → traffic.store.cache.subscriptions = []
  opened : traffic.store.cache.closed = false → traffic.closing = []

theorem accounts_start : Accounts start where
  distinct := List.nodup_nil
  counted := fun _ => rfl
  single := List.nodup_nil
  bounded := by
    intro subscription member
    cases member
  told := by
    intro subscription member
    cases member
  recorded := by
    intro key handle found
    cases found
  held := by
    intro name load generation handle found
    cases found
  emptied := fun _ => rfl
  opened := fun _ => rfl

theorem Accounts.owners_le_one {traffic : Traffic} (accounts : traffic.Accounts) (handle : Handle) :
    traffic.owners handle ≤ 1 := by
  rw [← accounts.counted]
  exact List.nodup_iff_count.mp accounts.single handle

theorem Accounts.live_of_isWatched {traffic : Traffic} (accounts : traffic.Accounts) {key : PageKey}
    (watched : traffic.store.cache.isWatched key = true) :
    ∃ handle, ⟨handle, key, key⟩ ∈ traffic.store.watcher.live := by
  unfold Cache.isWatched at watched
  obtain ⟨handle, found⟩ := Option.isSome_iff_exists.mp watched
  exact ⟨handle, accounts.recorded key handle found⟩

theorem Accounts.notices {traffic : Traffic} (accounts : traffic.Accounts) {key wanted : PageKey}
    (member : wanted ∈ traffic.store.watcher.notices key) : wanted = key := by
  unfold Watcher.notices at member
  obtain ⟨subscription, kept, rfl⟩ := List.mem_map.mp member
  obtain ⟨live, path⟩ := List.mem_filter.mp kept
  rw [accounts.told subscription live]
  simpa using path

/-- The loads of the second state hold what those of the first one hold, at the same stages. -/
def HoldsAs (traffic next : Traffic) : Prop :=
  ∀ name load generation handle, next.loads.lookup name = some load →
    load.stage = .subscribed generation handle →
    ∃ before, traffic.loads.lookup name = some before ∧ before.stage = load.stage ∧
      before.key = load.key

theorem Accounts.of_same {traffic next : Traffic} (accounts : traffic.Accounts)
    (watcher : next.store.watcher = traffic.store.watcher)
    (subscriptions : next.store.cache.subscriptions = traffic.store.cache.subscriptions)
    (closed : next.store.cache.closed = traffic.store.cache.closed)
    (closing : next.closing = traffic.closing) (distinct : (Keyed.keys next.loads).Nodup)
    (holding : ∀ handle, holders next.loads handle = holders traffic.loads handle)
    (held : traffic.HoldsAs next) : next.Accounts where
  distinct := distinct
  counted := by
    intro handle
    unfold owners
    rw [watcher, subscriptions, closing, holding]
    exact accounts.counted handle
  single := by
    rw [watcher]
    exact accounts.single
  bounded := by
    rw [watcher]
    exact accounts.bounded
  told := by
    rw [watcher]
    exact accounts.told
  recorded := by
    rw [watcher, subscriptions]
    exact accounts.recorded
  held := by
    intro name load generation handle found stage
    obtain ⟨before, earlier, same, key⟩ := held name load generation handle found stage
    rw [watcher, ← key]
    exact accounts.held name before generation handle earlier (same.trans stage)
  emptied := by
    rw [closed, subscriptions]
    exact accounts.emptied
  opened := by
    rw [closed, closing]
    exact accounts.opened

/-- One owner releases its subscription. Nobody else loses one by that. -/
theorem Accounts.of_release {traffic next : Traffic} (accounts : traffic.Accounts) (handle : Handle)
    (watcher : next.store.watcher = traffic.store.watcher.unsubscribe handle)
    (subscriptions : next.store.cache.subscriptions = traffic.store.cache.subscriptions)
    (closed : next.store.cache.closed = traffic.store.cache.closed)
    (opened : next.store.cache.closed = false → next.closing = [])
    (distinct : (Keyed.keys next.loads).Nodup)
    (released : ∀ other, next.owners other + [handle].count other = traffic.owners other)
    (held : traffic.HoldsAs next) : next.Accounts := by
  -- It had one owner at most, so it has none now.
  have ownerless : next.owners handle = 0 := by
    have one := accounts.owners_le_one handle
    have owned := released handle
    rw [List.count_singleton_self] at owned
    omega
  have survives : ∀ other key, next.owners other ≠ 0 →
      ⟨other, key, key⟩ ∈ traffic.store.watcher.live → ⟨other, key, key⟩ ∈ next.store.watcher.live := by
    intro other key owned live
    rw [watcher]
    refine List.mem_filter.mpr ⟨live, ?_⟩
    have apart : other ≠ handle := by
      rintro rfl
      exact owned ownerless
    simpa using apart
  have fewer : ∀ subscription ∈ next.store.watcher.live, subscription ∈ traffic.store.watcher.live := by
    intro subscription member
    rw [watcher] at member
    exact (List.mem_filter.mp member).1
  refine ⟨distinct, ?_, ?_, ?_, ?_, ?_, ?_, ?_, opened⟩
  · intro other
    have owned := released other
    rw [watcher, count_handle_unsubscribe]
    split
    · rename_i same
      rw [same, ownerless]
    · rename_i apart
      rw [accounts.counted, ← owned, List.count_eq_zero.mpr (by simpa using apart), Nat.add_zero]
  · rw [watcher]
    exact accounts.single.sublist (List.filter_sublist.map _)
  · intro subscription member
    rw [watcher]
    exact accounts.bounded subscription (fewer subscription member)
  · intro subscription member
    exact accounts.told subscription (fewer subscription member)
  · intro key other found
    refine survives other key ?_ (accounts.recorded key other (subscriptions ▸ found))
    have recorded := records_pos found
    unfold owners
    omega
  · intro name load generation other found stage
    obtain ⟨before, earlier, same, key⟩ := held name load generation other found stage
    have live := accounts.held name before generation other earlier (same.trans stage)
    rw [key] at live
    refine survives other load.key ?_ live
    have holds : other ∈ load.handles := by simp [Load.handles, stage]
    have held := holders_pos found holds
    unfold owners
    omega
  · rw [closed, subscriptions]
    exact accounts.emptied

theorem holdsAs_insert {traffic next : Traffic} {name : Nat} {load moved : Load}
    (found : traffic.loads.lookup name = some load)
    (loads : next.loads = Keyed.insert name moved traffic.loads)
    (holding : ∀ generation handle, moved.stage = .subscribed generation handle →
      load.stage = moved.stage ∧ load.key = moved.key) : traffic.HoldsAs next := by
  intro wanted other generation handle now stage
  rw [loads] at now
  rcases lookup_insert_or now with before | rfl
  · exact ⟨other, before, rfl, rfl⟩
  · obtain ⟨same, key⟩ := holding generation handle stage
    rw [Keyed.lookup_insert] at now
    split at now
    · rename_i here
      exact ⟨load, here ▸ found, same, key⟩
    · exact ⟨_, now, rfl, rfl⟩

theorem holders_insert {loads : List (Nat × Load)} {name : Nat} {load : Load}
    (found : loads.lookup name = some load) (moved : Load) (handle : Handle) :
    holders (Keyed.insert name moved loads) handle + load.handles.count handle =
      holders loads handle + moved.handles.count handle :=
  Keyed.weight_insert_of_some found _ moved

theorem Accounts.of_moved {traffic next : Traffic} (accounts : traffic.Accounts) {name : Nat}
    {load moved : Load} (found : traffic.loads.lookup name = some load)
    (loads : next.loads = Keyed.insert name moved traffic.loads)
    (watcher : next.store.watcher = traffic.store.watcher)
    (subscriptions : next.store.cache.subscriptions = traffic.store.cache.subscriptions)
    (closed : next.store.cache.closed = traffic.store.cache.closed)
    (closing : next.closing = traffic.closing) (handles : moved.handles = load.handles)
    (holding : ∀ generation handle, moved.stage = .subscribed generation handle →
      load.stage = moved.stage ∧ load.key = moved.key) : next.Accounts := by
  refine accounts.of_same watcher subscriptions closed closing ?_ ?_
    (holdsAs_insert found loads holding)
  · rw [loads]
    exact Keyed.nodup_keys_insert accounts.distinct name moved
  · intro handle
    have moves := holders_insert found moved handle
    rw [handles] at moves
    rw [loads]
    omega

theorem Accounts.of_subscribe {traffic : Traffic} (accounts : traffic.Accounts) {name : Nat}
    {load : Load} (found : traffic.loads.lookup name = some load) (handles : load.handles = [])
    (generation : Nat) (answers : List Answer) :
    Accounts { traffic with
      store := { traffic.store with
        watcher := (traffic.store.watcher.subscribe load.key load.key).2 }
      loads := Keyed.insert name
        { load with stage := .subscribed generation (traffic.store.watcher.last + 1) } traffic.loads
      answers } := by
  -- Handles are given out in ascending order.
  have unused : ∀ subscription ∈ traffic.store.watcher.live,
      subscription.handle ≠ traffic.store.watcher.last + 1 := by
    intro subscription member
    exact Nat.ne_of_lt (Nat.lt_succ_of_le (accounts.bounded subscription member))
  refine ⟨Keyed.nodup_keys_insert accounts.distinct _ _, ?_, ?_, ?_, ?_, ?_, ?_, accounts.emptied,
    accounts.opened⟩
  · intro handle
    have moves := holders_insert found
      { load with stage := .subscribed generation (traffic.store.watcher.last + 1) } handle
    rw [handles, List.count_nil, Nat.add_zero] at moves
    rw [count_handle_subscribe, accounts.counted]
    simp only [owners, moves, Load.handles]
    omega
  · simp only [Watcher.subscribe, List.map_append, List.map_cons, List.map_nil]
    refine List.nodup_append.mpr ⟨accounts.single, by simp, ?_⟩
    intro handle member other last
    obtain ⟨subscription, live, rfl⟩ := List.mem_map.mp member
    rw [List.mem_singleton.mp last]
    exact unused subscription live
  · intro subscription member
    rcases List.mem_append.mp member with before | now
    · exact Nat.le_succ_of_le (accounts.bounded subscription before)
    · rw [List.mem_singleton.mp now]
      exact Nat.le_refl _
  · intro subscription member
    rcases List.mem_append.mp member with before | now
    · exact accounts.told subscription before
    · rw [List.mem_singleton.mp now]
  · intro key handle recorded
    exact List.mem_append_left _ (accounts.recorded key handle recorded)
  · intro wanted other generation handle now stage
    rcases lookup_insert_or now with before | rfl
    · exact List.mem_append_left _ (accounts.held wanted other generation handle before stage)
    · cases stage
      exact List.mem_append_right _ (List.mem_singleton.mpr rfl)

theorem Accounts.of_record {traffic : Traffic} (accounts : traffic.Accounts) {name : Nat}
    {load : Load} (found : traffic.loads.lookup name = some load) {generation : Nat}
    {handle : Handle} (stage : load.stage = .subscribed generation handle)
    (opened : traffic.store.cache.closed = false)
    (unwatched : traffic.store.cache.isWatched load.key = false) (answers : List Answer) :
    Accounts { traffic with
      store := { traffic.store with cache := traffic.store.cache.record load.key handle }
      loads := Keyed.insert name { load with stage := .prepared generation true } traffic.loads
      answers } := by
  have missing : traffic.store.cache.subscriptions.lookup load.key = none := by
    unfold Cache.isWatched at unwatched
    simpa using unwatched
  refine ⟨Keyed.nodup_keys_insert accounts.distinct _ _, ?_, accounts.single, accounts.bounded,
    accounts.told, ?_, ?_, ?_, accounts.opened⟩
  · intro other
    have moves := holders_insert found { load with stage := .prepared generation true } other
    have holds : load.handles = [handle] := by simp [Load.handles, stage]
    -- The page gains what the load loses.
    have recorded : records (Keyed.insert load.key handle traffic.store.cache.subscriptions) other =
        records traffic.store.cache.subscriptions other + [handle].count other :=
      Keyed.weight_insert_of_none missing _ handle
    rw [holds, Load.handles, List.count_nil, Nat.add_zero] at moves
    rw [accounts.counted]
    simp only [owners, Cache.record, recorded, ← moves]
    omega
  · intro key other recorded
    change (Keyed.insert load.key handle _).lookup key = _ at recorded
    rw [Keyed.lookup_insert] at recorded
    split at recorded
    · rename_i same
      cases recorded
      rw [same]
      exact accounts.held name load generation handle found stage
    · exact accounts.recorded key other recorded
  · intro wanted other generation handle now holds
    rcases lookup_insert_or now with before | rfl
    · exact accounts.held wanted other generation handle before holds
    · cases holds
  · intro closed
    change traffic.store.cache.closed = true at closed
    rw [opened] at closed
    cases closed

theorem Accounts.moved {traffic : Traffic} (accounts : traffic.Accounts) {name : Nat} {load : Load}
    (found : traffic.loads.lookup name = some load) {surroundings : Surroundings} {stage : LoadStage}
    {store : Store} (move : load.Moves surroundings traffic.store load.stage stage store) :
    Accounts { traffic with
      store
      loads := Keyed.insert name { load with stage } traffic.loads
      answers := traffic.answers ++ load.answered load.stage stage } := by
  obtain ⟨file, key, cancelled, earlier⟩ := load
  -- Three kinds of moves change who owns what; all others keep it.
  cases move with
  | @subscribed generation _ => exact accounts.of_subscribe found rfl generation _
  | @recorded generation handle opened unwatched =>
    exact accounts.of_record found rfl opened unwatched _
  | @released generation handle watched =>
    refine accounts.of_release handle rfl rfl rfl accounts.opened
      (Keyed.nodup_keys_insert accounts.distinct _ _) ?_ (holdsAs_insert found rfl ?_)
    · intro other
      have moves := holders_insert found ⟨file, key, cancelled, .prepared generation watched⟩ other
      simp only [Load.handles, List.count_nil, Nat.add_zero] at moves
      simp only [owners, Store.release]
      omega
    · intro generation handle stage
      cases stage
  | rested => exact accounts.of_moved found rfl rfl rfl rfl rfl rfl fun _ _ _ => ⟨rfl, rfl⟩
  | _ =>
    refine accounts.of_moved found rfl rfl rfl rfl rfl rfl ?_
    intro generation handle stage
    cases stage

theorem count_recorded (subscriptions : List (PageKey × Handle)) (handle : Handle) :
    (subscriptions.map (·.2)).count handle = records subscriptions handle := by
  induction subscriptions with
  | nil => rfl
  | cons subscription rest ih =>
    unfold records Keyed.weight at ih ⊢
    rw [List.map_cons, List.map_cons, List.sum_cons, ← ih, ← List.singleton_append,
      List.count_append]

theorem Accounts.of_drop {traffic : Traffic} (accounts : traffic.Accounts) {name : Nat} {load : Load}
    (found : traffic.loads.lookup name = some load) (suspended : load.isSuspended = true) :
    Accounts { traffic with loads := Keyed.erase name traffic.loads } := by
  have none : load.handles = [] := by
    unfold Load.isSuspended at suspended
    unfold Load.handles
    cases stage : load.stage <;> simp [stage] at suspended ⊢
  refine accounts.of_same rfl rfl rfl rfl (Keyed.nodup_keys_erase accounts.distinct _) ?_ ?_
  · intro handle
    apply Keyed.weight_erase
    intro other member
    have same := Keyed.lookup_of_mem accounts.distinct member
    rw [found, Option.some.injEq] at same
    rw [← same, none, List.count_nil]
  · intro wanted other generation handle now stage
    exact ⟨other, (Keyed.lookup_of_erase now).2, rfl, rfl⟩

theorem Accounts.of_close {traffic : Traffic} (accounts : traffic.Accounts) :
    traffic.close.Accounts := by
  refine ⟨accounts.distinct, ?_, accounts.single, accounts.bounded, accounts.told, ?_,
    accounts.held, fun _ => rfl, ?_⟩
  · intro handle
    change (traffic.store.watcher.live.map (·.handle)).count handle =
      0 + holders traffic.loads handle +
        (traffic.closing ++ traffic.store.cache.subscriptions.map (·.2)).count handle
    rw [accounts.counted, List.count_append, count_recorded]
    unfold owners
    omega
  · intro key handle recorded
    cases recorded
  · intro closed
    cases closed

theorem Accounts.of_closing {traffic : Traffic} (accounts : traffic.Accounts) {handle : Handle}
    {rest : List Handle} (closing : traffic.closing = handle :: rest) :
    Accounts { traffic with store := traffic.store.release handle, closing := rest } := by
  refine accounts.of_release handle rfl rfl rfl ?_ accounts.distinct ?_
    fun _ load _ _ found _ => ⟨load, found, rfl, rfl⟩
  · intro opened
    have none := accounts.opened opened
    rw [closing] at none
    cases none
  · intro other
    have split : ([handle] ++ rest).count other = [handle].count other + rest.count other :=
      List.count_append
    rw [List.singleton_append] at split
    simp only [owners, closing, Store.release]
    omega

theorem Accounts.step {versions : Versions} {traffic : Traffic} (accounts : traffic.Accounts)
    (event : Event) : (traffic.step versions event).Accounts := by
  have steps := steps_step versions traffic event
  generalize traffic.step versions event = next at steps ⊢
  cases steps with
  | idle _ => exact accounts
  | started new =>
    refine accounts.of_same rfl rfl rfl rfl (Keyed.nodup_keys_insert accounts.distinct _ _) ?_ ?_
    · intro handle
      exact Keyed.weight_insert_of_none new _ _
    · intro wanted other generation handle now stage
      rcases lookup_insert_or now with before | rfl
      · exact ⟨other, before, rfl, rfl⟩
      · cases stage
  | advanced found move => exact accounts.moved found move
  | cancelled found => exact accounts.of_moved found rfl rfl rfl rfl rfl rfl fun _ _ _ => ⟨rfl, rfl⟩
  | dropped found suspended => exact accounts.of_drop found suspended
  | rewritten =>
    exact accounts.of_same rfl rfl rfl rfl accounts.distinct (fun _ => rfl)
      fun _ load _ _ found _ => ⟨load, found, rfl, rfl⟩
  | @delivered key _ _ =>
    obtain ⟨subscriptions, closed⟩ :=
      Cache.foldl_evict_eq (traffic.store.watcher.notices key) traffic.store.cache
    exact accounts.of_same rfl subscriptions closed rfl accounts.distinct (fun _ => rfl)
      fun _ load _ _ found _ => ⟨load, found, rfl, rfl⟩
  | invalidated =>
    exact accounts.of_same rfl rfl rfl rfl accounts.distinct (fun _ => rfl)
      fun _ load _ _ found _ => ⟨load, found, rfl, rfl⟩
  | closed => exact accounts.of_close
  | released closing => exact accounts.of_closing closing

theorem accounts_run (versions : Versions) (events : List Event) : (run versions events).Accounts :=
  run_induction accounts_start (fun _ event accounts => accounts.step event) events

end Traffic

end RulesAssist.Coverage
