import RulesAssist.Coverage.Cache

/-! Loading the entries of a page, step by step.

Each step looks at the shared state once, and other loads, changes of files and evictions may come
between any two steps. The order matters: the generation is noted first, then the page is watched,
then it is read, and then the generation is looked at again.
-/

set_option autoImplicit false

namespace RulesAssist.Coverage

/-- Why a load has no entries. -/
inductive LoadError where
  | unreadable
  | page (error : PageError)
  | cancelled
  | superseded
  deriving DecidableEq, Repr

namespace Malformation

def message? : Malformation → Option String
  | .unreadable => none
  | .noFiles => some "malformed coverage report: report lists no rules files"
  | .outOfRange range =>
    some ("malformed coverage report: source position out of range at " ++ toString range.line ++
      ":" ++ toString range.column ++ " (offsets " ++ toString range.currentOffset ++ ".." ++
      toString range.endOffset ++ ")")

end Malformation

def PageError.message? : PageError → Option String
  | .missingMarker marker => some ("coverage file is missing the `" ++ marker.name ++ "` marker")
  | .malformed malformation => malformation.message?
  | .otherSource expected found =>
    some ("coverage report is for `" ++ found ++ "`, not `" ++ expected ++ "`")

def LoadError.message? : LoadError → Option String
  | .unreadable => none
  | .page error => error.message?
  | .cancelled => some "coverage load cancelled"
  | .superseded => some "coverage file changed while loading"

/-- How far a load has come. -/
inductive LoadStage where
  | started
  | noted (generation : Nat)
  | subscribing (generation : Nat)
  | subscribed (generation : Nat) (handle : Handle)
  | releasing (generation : Nat) (handle : Handle) (watched : Bool)
  | prepared (generation : Nat) (watched : Bool)
  | fetched (generation : Nat) (watched : Bool) (content : Option String)
  | read (generation : Nat) (watched : Bool) (text : String)
  | finished (result : Except LoadError Listing)

structure Load where
  file : String
  key : PageKey
  cancelled : Bool
  stage : LoadStage

/-- What the world answers at this moment: whether the watcher refuses, and what the page holds. -/
structure Surroundings where
  refuses : Bool
  content : Option String

namespace Load

def start (file : String) (key : PageKey) (cancelled : Bool) : Load :=
  { file, key, cancelled, stage := .started }

def result? (load : Load) : Option (Except LoadError Listing) :=
  match load.stage with
  | .finished result => some result
  | _ => none

def note (load : Load) (store : Store) : LoadStage :=
  match store.cache.listing? load.key with
  | some listing => .finished (.ok listing)
  | none => .noted (store.cache.generation load.key)

def checkWatch (load : Load) (store : Store) (generation : Nat) : LoadStage :=
  if store.cache.closed then .prepared generation false
  else if store.cache.isWatched load.key then .prepared generation true
  else .subscribing generation

/-- Record an own subscription, or release it if it is not wanted any more. -/
def settle (load : Load) (store : Store) (generation : Nat) (handle : Handle) : LoadStage × Store :=
  if store.cache.closed || store.cache.isWatched load.key then
    (.releasing generation handle (!store.cache.closed), store)
  else
    (.prepared generation true, { store with cache := store.cache.record load.key handle })

/-- Parse the text that was read, and keep the entries if no eviction came between. -/
def publish (load : Load) (store : Store) (generation : Nat) (watched : Bool) (text : String) :
    LoadStage × Store :=
  match Page.entries text load.file with
  | .error error => (.finished (.error (.page error)), store)
  | .ok entries =>
    if store.cache.generation load.key ≠ generation then
      (.finished (.error .superseded), store)
    else
      let listing : Listing := ⟨store.fresh, entries⟩
      let store := { store with fresh := store.fresh + 1 }
      if watched && !store.cache.closed then
        (.finished (.ok listing), { store with cache := store.cache.keep load.key listing })
      else
        (.finished (.ok listing), store)

def advance (load : Load) (surroundings : Surroundings) (store : Store) : LoadStage × Store :=
  match load.stage with
  | .started => (load.note store, store)
  | .noted generation => (load.checkWatch store generation, store)
  -- The page is watched before it is read, so that a change during the read is noticed.
  | .subscribing generation =>
    if surroundings.refuses then (.prepared generation false, store)
    else
      let (handle, watcher) := store.watcher.subscribe load.key load.key
      (.subscribed generation handle, { store with watcher })
  | .subscribed generation handle => load.settle store generation handle
  | .releasing generation handle watched => (.prepared generation watched, store.release handle)
  | .prepared generation watched =>
    if load.cancelled then (.finished (.error .cancelled), store)
    else (.fetched generation watched surroundings.content, store)
  -- A cancellation that has come meanwhile counts more than what was read.
  | .fetched generation watched content =>
    if load.cancelled then (.finished (.error .cancelled), store)
    else
      match content with
      | none => (.finished (.error .unreadable), store)
      | some text => (.read generation watched text, store)
  | .read generation watched text => load.publish store generation watched text
  | .finished result => (.finished result, store)

def step (surroundings : Surroundings) (state : Load × Store) : Load × Store :=
  let (stage, store) := state.1.advance surroundings state.2
  ({ state.1 with stage }, store)

/-- Enough steps to bring any load to its end. -/
def stepLimit : Nat := 8

def run (surroundings : Surroundings) (load : Load) (store : Store) :
    Except LoadError Listing × Store :=
  let (load, store) := Nat.repeat (step surroundings) stepLimit (load, store)
  (load.result?.getD (.error .cancelled), store)

end Load

end RulesAssist.Coverage
