import RulesAssist.Proofs.Coverage.Moves

/-! Any number of loads over one store, while their pages are rewritten.

Loads, rewrites, notifications, evictions and the closing of the cache are single events, and a run is
any list of them. A load takes one of its own steps at a time. The notification of a rewrite is in
flight until it is delivered, and deliveries may overtake each other.
-/

set_option autoImplicit false

namespace RulesAssist.Coverage

/-- The texts of all versions that a page will ever have. A version that is no text has none. -/
abbrev Versions := PageKey → Nat → Option String

/-- Entries that a load has answered, and the text that it took them from. Entries that were kept
already come without a text. -/
structure Answer where
  file : String
  key : PageKey
  source : Option String
  listing : Listing

structure Traffic where
  store : Store
  loads : List (Nat × Load)
  /-- The version that each page has now. -/
  current : PageKey → Nat
  /-- The rewrites of which nobody has been told, by page and version. -/
  inFlight : List (PageKey × Nat)
  /-- The subscriptions that the closed cache has given up and not yet released. -/
  closing : List Handle
  /-- Whatever was answered so far. Nothing in the system looks at it. -/
  answers : List Answer

inductive Event where
  | start (name : Nat) (file : String) (key : PageKey)
  | advance (name : Nat) (refuses unreadable : Bool)
  | cancel (name : Nat)
  | drop (name : Nat)
  | rewrite (key : PageKey)
  | deliver (key : PageKey) (version : Nat)
  | invalidate (key : PageKey)
  | close
  | release
  deriving DecidableEq, Repr

def LoadStage.isFinished : LoadStage → Bool
  | .finished _ => true
  | _ => false

namespace Load

def handles (load : Load) : List Handle :=
  match load.stage with
  | .subscribed _ handle | .releasing _ handle _ => [handle]
  | _ => []

def isSuspended (load : Load) : Bool :=
  match load.stage with
  | .started | .prepared _ _ | .fetched _ _ _ | .finished _ => true
  | _ => false

def answered (load : Load) : LoadStage → LoadStage → List Answer
  | .started, .finished (.ok listing) => [⟨load.file, load.key, none, listing⟩]
  | .read _ _ text, .finished (.ok listing) => [⟨load.file, load.key, some text, listing⟩]
  | _, _ => []

end Load

namespace Traffic

def start : Traffic :=
  { store := .empty, loads := [], current := fun _ => 0, inFlight := [], closing := [], answers := [] }

def surroundings (versions : Versions) (traffic : Traffic) (key : PageKey)
    (refuses unreadable : Bool) : Surroundings :=
  { refuses, content := if unreadable then none else versions key (traffic.current key) }

def advance (versions : Versions) (traffic : Traffic) (name : Nat) (load : Load)
    (refuses unreadable : Bool) : Traffic :=
  let (stage, store) :=
    load.advance (traffic.surroundings versions load.key refuses unreadable) traffic.store
  { traffic with
    store
    loads := Keyed.insert name { load with stage } traffic.loads
    answers := traffic.answers ++ load.answered load.stage stage }

def rewrite (traffic : Traffic) (key : PageKey) : Traffic :=
  let version := traffic.current key + 1
  { traffic with
    current := fun other => if other = key then version else traffic.current other
    inFlight := (key, version) :: traffic.inFlight }

def deliver (traffic : Traffic) (key : PageKey) (version : Nat) : Traffic :=
  { traffic with
    store := (traffic.store.notify key).2
    inFlight := traffic.inFlight.erase (key, version) }

/-- Close the cache. Its subscriptions are released later, one by one. -/
def close (traffic : Traffic) : Traffic :=
  let (handles, cache) := traffic.store.cache.close
  { traffic with store := { traffic.store with cache }, closing := traffic.closing ++ handles }

/-- One event. An event that cannot happen changes nothing. -/
def step (versions : Versions) (traffic : Traffic) : Event → Traffic
  | .start name file key =>
    match traffic.loads.lookup name with
    | some _ => traffic
    | none =>
      { traffic with loads := Keyed.insert name (Load.start file key false) traffic.loads }
  | .advance name refuses unreadable =>
    match traffic.loads.lookup name with
    | none => traffic
    | some load => traffic.advance versions name load refuses unreadable
  | .cancel name =>
    match traffic.loads.lookup name with
    | none => traffic
    | some load => { traffic with loads := Keyed.insert name { load with cancelled := true } traffic.loads }
  | .drop name =>
    match traffic.loads.lookup name with
    | none => traffic
    | some load =>
      if load.isSuspended then { traffic with loads := Keyed.erase name traffic.loads } else traffic
  | .rewrite key => traffic.rewrite key
  | .deliver key version =>
    if (key, version) ∈ traffic.inFlight then traffic.deliver key version else traffic
  | .invalidate key => { traffic with store := traffic.store.discard key }
  | .close => traffic.close
  | .release =>
    match traffic.closing with
    | [] => traffic
    | handle :: rest => { traffic with store := traffic.store.release handle, closing := rest }

def run (versions : Versions) (events : List Event) : Traffic :=
  events.foldl (step versions) start

/-- How often an event evicts a page. A notification evicts it once for every subscription that hears
of it. -/
def evictions (traffic : Traffic) (key : PageKey) : Event → Nat
  | .deliver path version =>
    if (path, version) ∈ traffic.inFlight then (traffic.store.watcher.notices path).count key else 0
  | .invalidate path => if path = key then 1 else 0
  | _ => 0

theorem run_append (versions : Versions) (before events : List Event) :
    run versions (before ++ events) = events.foldl (step versions) (run versions before) :=
  List.foldl_append

@[simp] theorem deliver_cache (traffic : Traffic) (key : PageKey) (version : Nat) :
    (traffic.deliver key version).store.cache =
      (traffic.store.watcher.notices key).foldl Cache.evict traffic.store.cache := rfl

@[simp] theorem discard_cache (store : Store) (key : PageKey) :
    (store.discard key).cache = store.cache.evict key := rfl

theorem lookup_insert_or {name wanted : Nat} {load found : Load} {loads : List (Nat × Load)}
    (now : (Keyed.insert name load loads).lookup wanted = some found) :
    loads.lookup wanted = some found ∨ found = load := by
  rw [Keyed.lookup_insert] at now
  split at now
  · exact .inr (Option.some.inj now).symm
  · exact .inl now

theorem step_advance {traffic : Traffic} {name : Nat} {load : Load}
    (found : traffic.loads.lookup name = some load) (versions : Versions) (refuses unreadable : Bool) :
    traffic.step versions (.advance name refuses unreadable) =
      traffic.advance versions name load refuses unreadable := by
  simp only [step, found]

/-- What an event that cannot happen misses. -/
inductive Idle (traffic : Traffic) : Event → Prop where
  | started {name : Nat} {file : String} {key : PageKey} {load : Load} :
      traffic.loads.lookup name = some load → Idle traffic (.start name file key)
  | advanced {name : Nat} {refuses unreadable : Bool} :
      traffic.loads.lookup name = none → Idle traffic (.advance name refuses unreadable)
  | cancelled {name : Nat} : traffic.loads.lookup name = none → Idle traffic (.cancel name)
  | dropped {name : Nat} : traffic.loads.lookup name = none → Idle traffic (.drop name)
  | busy {name : Nat} {load : Load} : traffic.loads.lookup name = some load →
      load.isSuspended = false → Idle traffic (.drop name)
  | delivered {key : PageKey} {version : Nat} :
      (key, version) ∉ traffic.inFlight → Idle traffic (.deliver key version)
  | released : traffic.closing = [] → Idle traffic .release

/-- What one event does. -/
inductive Steps (versions : Versions) (traffic : Traffic) : Event → Traffic → Prop where
  | idle {event : Event} : traffic.Idle event → Steps versions traffic event traffic
  | started {name : Nat} {file : String} {key : PageKey} : traffic.loads.lookup name = none →
      Steps versions traffic (.start name file key)
        { traffic with loads := Keyed.insert name (Load.start file key false) traffic.loads }
  | advanced {name : Nat} {refuses unreadable : Bool} {load : Load} {stage : LoadStage} {store : Store} :
      traffic.loads.lookup name = some load →
      load.Moves (traffic.surroundings versions load.key refuses unreadable) traffic.store load.stage
        stage store →
      Steps versions traffic (.advance name refuses unreadable)
        { traffic with
          store
          loads := Keyed.insert name { load with stage } traffic.loads
          answers := traffic.answers ++ load.answered load.stage stage }
  | cancelled {name : Nat} {load : Load} : traffic.loads.lookup name = some load →
      Steps versions traffic (.cancel name)
        { traffic with loads := Keyed.insert name { load with cancelled := true } traffic.loads }
  | dropped {name : Nat} {load : Load} : traffic.loads.lookup name = some load →
      load.isSuspended = true →
      Steps versions traffic (.drop name) { traffic with loads := Keyed.erase name traffic.loads }
  | rewritten {key : PageKey} : Steps versions traffic (.rewrite key) (traffic.rewrite key)
  | delivered {key : PageKey} {version : Nat} : (key, version) ∈ traffic.inFlight →
      Steps versions traffic (.deliver key version) (traffic.deliver key version)
  | invalidated {key : PageKey} :
      Steps versions traffic (.invalidate key) { traffic with store := traffic.store.discard key }
  | closed : Steps versions traffic .close traffic.close
  | released {handle : Handle} {rest : List Handle} : traffic.closing = handle :: rest →
      Steps versions traffic .release
        { traffic with store := traffic.store.release handle, closing := rest }

theorem steps_step (versions : Versions) (traffic : Traffic) (event : Event) :
    Steps versions traffic event (traffic.step versions event) := by
  cases event with
  | start name file key =>
    cases found : traffic.loads.lookup name with
    | none => simpa only [step, found] using .started found
    | some load => simpa only [step, found] using .idle (.started found)
  | advance name refuses unreadable =>
    cases found : traffic.loads.lookup name with
    | none => simpa only [step, found] using .idle (.advanced found)
    | some load =>
      rw [step_advance found]
      exact .advanced found (load.moves_advance _ _)
  | cancel name =>
    cases found : traffic.loads.lookup name with
    | none => simpa only [step, found] using .idle (.cancelled found)
    | some load => simpa only [step, found] using .cancelled found
  | drop name =>
    cases found : traffic.loads.lookup name with
    | none => simpa only [step, found] using .idle (.dropped found)
    | some load =>
      simp only [step, found]
      split
      · rename_i suspended
        exact .dropped found suspended
      · rename_i busy
        exact .idle (.busy found (Bool.eq_false_iff.mpr busy))
  | rewrite key => exact .rewritten
  | deliver key version =>
    simp only [step]
    split
    · rename_i sent
      exact .delivered sent
    · rename_i unsent
      exact .idle (.delivered unsent)
  | invalidate key => exact .invalidated
  | close => exact .closed
  | release =>
    cases closing : traffic.closing with
    | nil => simpa only [step, closing] using .idle (.released closing)
    | cons handle rest => simpa only [step, closing] using .released closing

theorem store_step {versions : Versions} {traffic : Traffic} (property : Store → Prop)
    (same : property traffic.store)
    (moved : ∀ name refuses unreadable load stage next, traffic.loads.lookup name = some load →
      load.Moves (traffic.surroundings versions load.key refuses unreadable) traffic.store load.stage
        stage next → property next)
    (notified : ∀ path, property (traffic.store.notify path).2)
    (discarded : ∀ key, property (traffic.store.discard key))
    (closed : property { traffic.store with cache := traffic.store.cache.close.2 })
    (released : ∀ handle, property (traffic.store.release handle)) (event : Event) :
    property (traffic.step versions event).store := by
  have steps := steps_step versions traffic event
  generalize traffic.step versions event = next at steps ⊢
  cases steps with
  | advanced found move => exact moved _ _ _ _ _ _ found move
  | delivered _ => exact notified _
  | invalidated => exact discarded _
  | closed => exact closed
  | released _ => exact released _
  | _ => exact same

/-- Where a load that is there after an event comes from. -/
inductive Comes (versions : Versions) (traffic : Traffic) : Event → Nat → Load → Prop where
  | stayed {event : Event} {name : Nat} {load : Load} : traffic.loads.lookup name = some load →
      (∀ refuses unreadable, event ≠ .advance name refuses unreadable) →
      Comes versions traffic event name load
  | started {name : Nat} {file : String} {key : PageKey} : traffic.loads.lookup name = none →
      Comes versions traffic (.start name file key) name (Load.start file key false)
  | cancelled {name : Nat} {load : Load} : traffic.loads.lookup name = some load →
      Comes versions traffic (.cancel name) name { load with cancelled := true }
  | moved {name : Nat} {refuses unreadable : Bool} {load : Load} {stage : LoadStage} :
      traffic.loads.lookup name = some load →
      load.Moves (traffic.surroundings versions load.key refuses unreadable) traffic.store load.stage
        stage (traffic.step versions (.advance name refuses unreadable)).store →
      Comes versions traffic (.advance name refuses unreadable) name { load with stage }

theorem comes_insert {versions : Versions} {traffic : Traffic} {event : Event} {name other : Nat}
    {load moved : Load} (after : (Keyed.insert other moved traffic.loads).lookup name = some load)
    (same : name = other → Comes versions traffic event name moved)
    (apart : ∀ refuses unreadable, event = .advance name refuses unreadable → name = other) :
    Comes versions traffic event name load := by
  rw [Keyed.lookup_insert] at after
  split at after
  · rename_i here
    exact Option.some.inj after ▸ same here
  · rename_i elsewhere
    exact .stayed after fun refuses unreadable own => elsewhere (apart refuses unreadable own)

theorem comes_step {versions : Versions} {traffic : Traffic} {event : Event} {name : Nat} {load : Load}
    (after : (traffic.step versions event).loads.lookup name = some load) :
    Comes versions traffic event name load := by
  have steps := steps_step versions traffic event
  generalize whole : traffic.step versions event = next at steps after
  cases steps with
  | idle idle =>
    -- The load is there, so its own step does not miss it.
    refine .stayed after ?_
    rintro _ _ rfl
    cases idle with
    | advanced missing => cases missing.symm.trans after
  | started new =>
    refine comes_insert after ?_ nofun
    rintro rfl
    exact .started new
  | advanced found move =>
    refine comes_insert after ?_ ?_
    · rintro rfl
      refine .moved found ?_
      rw [whole]
      exact move
    · rintro _ _ ⟨⟩
      rfl
  | cancelled found =>
    refine comes_insert after ?_ nofun
    rintro rfl
    exact .cancelled found
  | dropped _ _ => exact .stayed (Keyed.lookup_of_erase after).2 nofun
  | _ => exact .stayed after nofun

theorem foldl_induction {versions : Versions} {property : Traffic → Prop}
    (next : ∀ traffic event, property traffic → property (traffic.step versions event))
    (events : List Event) {traffic : Traffic} (now : property traffic) :
    property (events.foldl (step versions) traffic) := by
  induction events generalizing traffic with
  | nil => exact now
  | cons event rest ih => exact ih (next traffic event now)

theorem run_induction {versions : Versions} {property : Traffic → Prop} (first : property start)
    (next : ∀ traffic event, property traffic → property (traffic.step versions event))
    (events : List Event) : property (run versions events) :=
  foldl_induction next events first

/-- A load that nothing comes between takes the steps that `Load.run` takes. -/
theorem foldl_advance {versions : Versions} {traffic : Traffic} {name : Nat} {load : Load}
    (found : traffic.loads.lookup name = some load) (refuses unreadable : Bool) (count : Nat)
    {after : Traffic} (ran : (List.replicate count (.advance name refuses unreadable)).foldl
      (step versions) traffic = after) :
    ∃ ended, Nat.repeat (Load.step (traffic.surroundings versions load.key refuses unreadable)) count
        (load, traffic.store) = (ended, after.store) ∧
      after.loads.lookup name = some ended ∧ ended.key = load.key ∧
      after.current = traffic.current := by
  induction count generalizing after with
  | zero =>
    subst ran
    exact ⟨load, rfl, found, rfl, rfl⟩
  | succ count ih =>
    rw [List.replicate_succ', List.foldl_append, List.foldl_cons, List.foldl_nil] at ran
    obtain ⟨ended, steps, now, key, current⟩ := ih rfl
    generalize (List.replicate count _).foldl (step versions) traffic = before
      at ran steps now current
    have meets : before.surroundings versions ended.key refuses unreadable =
        traffic.surroundings versions load.key refuses unreadable := by
      unfold surroundings
      rw [key, current]
    simp only [step, now, advance, meets] at ran
    subst ran
    refine ⟨_, ?_, Keyed.lookup_insert_self .., key, current⟩
    rw [Nat.repeat, steps]
    rfl

/-- Closing the cache in one go comes to the same as closing it and then releasing every handle. -/
theorem foldl_release {versions : Versions} {traffic : Traffic} (opened : traffic.closing = []) :
    ((List.replicate traffic.store.cache.subscriptions.length .release).foldl (step versions)
      traffic.close).store = traffic.store.close := by
  have released : ∀ (handles : List Handle) (traffic : Traffic), traffic.closing = handles →
      ((List.replicate handles.length .release).foldl (step versions) traffic).store =
        handles.foldl Store.release traffic.store := by
    intro handles
    induction handles with
    | nil =>
      intro traffic _
      rfl
    | cons handle rest ih =>
      intro traffic closing
      simp only [List.length_cons, List.replicate_succ, List.foldl_cons, step, closing]
      exact ih _ rfl
  have closing : traffic.close.closing = traffic.store.cache.subscriptions.map (·.2) := by
    simp [close, Cache.close, opened]
  have length := released _ _ closing
  rw [List.length_map] at length
  exact length

end Traffic

end RulesAssist.Coverage
