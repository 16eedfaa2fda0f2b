import RulesAssist.Coverage.Load

/-! What a watcher may do in the middle of being subscribed to.

The watcher is asked while no lock is held, so it can refuse, report a change at once, close the
cache, or start another load of the same page.
-/

set_option autoImplicit false

namespace RulesAssist.Coverage

inductive Interference where
  | none
  | refusal
  | change
  | closing
  | nestedLoad
  deriving DecidableEq, Repr

namespace Interference

def nestedFile : String := "nested"

/-- What happens before the subscription is made. The nested load is withdrawn from the start, so it
watches the page and then ends without reading it. -/
def act (interference : Interference) (key : PageKey) (store : Store) : Store :=
  match interference with
  | .none | .refusal => store
  | .change => store.discard key
  | .closing => store.close
  | .nestedLoad =>
    ((Load.start nestedFile key true).run { refuses := false, content := Option.none } store).2

/-- Only the first subscription comes upon a nested load; all other interference goes on. -/
def after : Interference → Interference
  | .nestedLoad => .none
  | interference => interference

end Interference

structure Disturbed where
  load : Load
  store : Store
  interference : Interference

namespace Disturbed

def step (content : Option String) (state : Disturbed) : Disturbed :=
  match state.load.stage with
  | .subscribing _ =>
    let surroundings : Surroundings := { refuses := state.interference = .refusal, content }
    let store := state.interference.act state.load.key state.store
    let (load, store) := Load.step surroundings (state.load, store)
    { load, store, interference := state.interference.after }
  | _ =>
    let (load, store) := Load.step { refuses := false, content } (state.load, state.store)
    { state with load, store }

/-- The load rests: its page has been read and not been looked at, or it has ended. -/
def isResting (state : Disturbed) : Bool :=
  match state.load.stage with
  | .fetched _ _ _ | .finished _ => true
  | _ => false

def rest (content : Option String) (state : Disturbed) : Disturbed :=
  Nat.repeat (fun state => if state.isResting then state else state.step content)
    Load.stepLimit state

def finish (content : Option String) (state : Disturbed) : Disturbed :=
  Nat.repeat (step content) Load.stepLimit state

end Disturbed

end RulesAssist.Coverage
