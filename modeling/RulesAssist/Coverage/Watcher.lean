import RulesAssist.FilePath

/-! Subscriptions to changes of files.

A subscription is for one path, compared by components. It carries what its owner wants to be told
when the file changes.
-/

set_option autoImplicit false

namespace RulesAssist.Coverage

open FilePath (Component)

abbrev Handle := Nat

structure Subscription (Notice : Type) where
  handle : Handle
  path : List Component
  notice : Notice

structure Watcher (Notice : Type) where
  last : Handle
  live : List (Subscription Notice)

namespace Watcher

variable {Notice : Type}

def empty : Watcher Notice := { last := 0, live := [] }

/-- Every subscription gets a handle of its own, also for a path that is watched already. -/
def subscribe (watcher : Watcher Notice) (path : List Component) (notice : Notice) :
    Handle × Watcher Notice :=
  let handle := watcher.last + 1
  (handle, { last := handle, live := watcher.live ++ [⟨handle, path, notice⟩] })

def unsubscribe (watcher : Watcher Notice) (handle : Handle) : Watcher Notice :=
  { watcher with live := watcher.live.filter (·.handle ≠ handle) }

/-- Those who are told of a change: all that are subscribed when it is reported. -/
def notices (watcher : Watcher Notice) (path : List Component) : List Notice :=
  (watcher.live.filter (·.path = path)).map (·.notice)

def count (watcher : Watcher Notice) : Nat :=
  watcher.live.length

end Watcher

end RulesAssist.Coverage
