import Mathlib
import RulesAssist.Coverage.Load

/-! What one step of a load can do.

Proofs about loads go by the cases of `Load.Moves` and never open the step itself.
-/

set_option autoImplicit false

namespace RulesAssist.Coverage

namespace Load

variable {load : Load} {surroundings : Surroundings} {store : Store}

/-- The moves of a load from a stage: the conditions, the next stage, and the store after it. -/
inductive Moves (load : Load) (surroundings : Surroundings) (store : Store) :
    LoadStage → LoadStage → Store → Prop where
  | found {listing : Listing} : store.cache.listing? load.key = some listing →
      Moves load surroundings store .started (.finished (.ok listing)) store
  | noted : store.cache.listing? load.key = none →
      Moves load surroundings store .started (.noted (store.cache.generation load.key)) store
  | barred {generation : Nat} : store.cache.closed = true →
      Moves load surroundings store (.noted generation) (.prepared generation false) store
  | shared {generation : Nat} : store.cache.closed = false → store.cache.isWatched load.key = true →
      Moves load surroundings store (.noted generation) (.prepared generation true) store
  | unwatched {generation : Nat} : store.cache.closed = false →
      store.cache.isWatched load.key = false →
      Moves load surroundings store (.noted generation) (.subscribing generation) store
  | refused {generation : Nat} : surroundings.refuses = true →
      Moves load surroundings store (.subscribing generation) (.prepared generation false) store
  | subscribed {generation : Nat} : surroundings.refuses = false →
      Moves load surroundings store (.subscribing generation)
        (.subscribed generation (store.watcher.last + 1))
        { store with watcher := (store.watcher.subscribe load.key load.key).2 }
  | recorded {generation : Nat} {handle : Handle} : store.cache.closed = false →
      store.cache.isWatched load.key = false →
      Moves load surroundings store (.subscribed generation handle) (.prepared generation true)
        { store with cache := store.cache.record load.key handle }
  | unneeded {generation : Nat} {handle : Handle} :
      (store.cache.closed = true ∨ store.cache.isWatched load.key = true) →
      Moves load surroundings store (.subscribed generation handle)
        (.releasing generation handle (!store.cache.closed)) store
  | released {generation : Nat} {handle : Handle} {watched : Bool} :
      Moves load surroundings store (.releasing generation handle watched)
        (.prepared generation watched) (store.release handle)
  | withdrawn {generation : Nat} {watched : Bool} : load.cancelled = true →
      Moves load surroundings store (.prepared generation watched)
        (.finished (.error .cancelled)) store
  | fetched {generation : Nat} {watched : Bool} : load.cancelled = false →
      Moves load surroundings store (.prepared generation watched)
        (.fetched generation watched surroundings.content) store
  | abandoned {generation : Nat} {watched : Bool} {content : Option String} : load.cancelled = true →
      Moves load surroundings store (.fetched generation watched content)
        (.finished (.error .cancelled)) store
  | unreadable {generation : Nat} {watched : Bool} : load.cancelled = false →
      Moves load surroundings store (.fetched generation watched none)
        (.finished (.error .unreadable)) store
  | read {generation : Nat} {watched : Bool} {text : String} : load.cancelled = false →
      Moves load surroundings store (.fetched generation watched (some text))
        (.read generation watched text) store
  | rejected {generation : Nat} {watched : Bool} {text : String} {error : PageError} :
      Page.entries text load.file = .error error →
      Moves load surroundings store (.read generation watched text)
        (.finished (.error (.page error))) store
  | superseded {generation : Nat} {watched : Bool} {text : String} {entries : List Entry} :
      Page.entries text load.file = .ok entries → store.cache.generation load.key ≠ generation →
      Moves load surroundings store (.read generation watched text)
        (.finished (.error .superseded)) store
  | kept {generation : Nat} {text : String} {entries : List Entry} :
      Page.entries text load.file = .ok entries → store.cache.generation load.key = generation →
      store.cache.closed = false →
      Moves load surroundings store (.read generation true text)
        (.finished (.ok ⟨store.fresh, entries⟩))
        { store with
          fresh := store.fresh + 1
          cache := store.cache.keep load.key ⟨store.fresh, entries⟩ }
  | answered {generation : Nat} {watched : Bool} {text : String} {entries : List Entry} :
      Page.entries text load.file = .ok entries → store.cache.generation load.key = generation →
      (watched = false ∨ store.cache.closed = true) →
      Moves load surroundings store (.read generation watched text)
        (.finished (.ok ⟨store.fresh, entries⟩)) { store with fresh := store.fresh + 1 }
  | rested {result : Except LoadError Listing} :
      Moves load surroundings store (.finished result) (.finished result) store

theorem moves_checkWatch {generation : Nat} :
    Moves load surroundings store (.noted generation) (load.checkWatch store generation) store := by
  unfold checkWatch
  split
  · rename_i closed
    exact .barred closed
  · rename_i opened
    rw [Bool.not_eq_true] at opened
    split
    · rename_i watched
      exact .shared opened watched
    · rename_i unwatched
      exact .unwatched opened (Bool.eq_false_iff.mpr unwatched)

theorem moves_settle {generation : Nat} {handle : Handle} :
    Moves load surroundings store (.subscribed generation handle)
      (load.settle store generation handle).1 (load.settle store generation handle).2 := by
  unfold settle
  split
  · rename_i unwanted
    exact .unneeded (by simpa using unwanted)
  · rename_i wanted
    rw [Bool.or_eq_true, not_or, Bool.not_eq_true, Bool.not_eq_true] at wanted
    exact .recorded wanted.1 wanted.2

theorem moves_publish {generation : Nat} {watched : Bool} {text : String} :
    Moves load surroundings store (.read generation watched text)
      (load.publish store generation watched text).1
      (load.publish store generation watched text).2 := by
  unfold publish
  split
  · rename_i error failed
    exact .rejected failed
  · rename_i entries parsed
    split
    · rename_i changed
      exact .superseded parsed changed
    · rename_i same
      have unchanged := Decidable.not_not.mp same
      cases watched with
      | false => exact .answered parsed unchanged (.inl rfl)
      | true =>
        cases closed : store.cache.closed with
        | false => simpa [closed] using Moves.kept parsed unchanged closed
        | true => simpa [closed] using Moves.answered parsed unchanged (.inr closed)

theorem moves_advance (load : Load) (surroundings : Surroundings) (store : Store) :
    Moves load surroundings store load.stage (load.advance surroundings store).1
      (load.advance surroundings store).2 := by
  unfold advance
  cases load.stage with
  | started =>
    show Moves load surroundings store .started (load.note store) store
    unfold note
    split
    · rename_i listing held
      exact .found held
    · rename_i missing
      exact .noted missing
  | noted generation => exact moves_checkWatch
  | subscribing generation =>
    cases refuses : surroundings.refuses with
    | true => exact .refused refuses
    | false => exact .subscribed refuses
  | subscribed generation handle => exact moves_settle
  | releasing generation handle watched => exact .released
  | prepared generation watched =>
    cases cancelled : load.cancelled with
    | true => exact .withdrawn cancelled
    | false => exact .fetched cancelled
  | fetched generation watched content =>
    cases cancelled : load.cancelled with
    | true => exact .abandoned cancelled
    | false =>
      cases content with
      | none => exact .unreadable cancelled
      | some text => exact .read cancelled
  | read generation watched text => exact moves_publish
  | finished result => exact .rested

end Load

end RulesAssist.Coverage
