import Mathlib
import RulesAssist.Coverage.Load

/-! A load that nothing comes between.

It answers with what is kept, or else with what the page says, and keeps nothing but its own answer. A
second load of the same page finds either that or the same page, so that it answers alike.
-/

set_option autoImplicit false

namespace RulesAssist.Coverage

namespace Load

/-- What a load gets that looks at the page itself. -/
def reading (load : Load) (content : Option String) : Except LoadError (List Entry) :=
  if load.cancelled then .error .cancelled
  else
    match content with
    | none => .error .unreadable
    | some text => (Page.entries text load.file).mapError .page

theorem repeat_eq_iterate {State : Type} (advance : State → State) (count : Nat) (state : State) :
    Nat.repeat advance count state = advance^[count] state := by
  induction count with
  | zero => rfl
  | succ count ih => rw [Nat.repeat, ih, Function.iterate_succ_apply']

variable {key : PageKey} {store : Store}

theorem run_of_kept (file : String) (cancelled : Bool) {listing : Listing}
    (kept : store.cache.listing? key = some listing) (surroundings : Surroundings) :
    (start file key cancelled).run surroundings store = (.ok listing, store) := by
  simp [run, stepLimit, Nat.repeat, step, advance, start, note, kept, result?]

theorem exists_prepared (file : String) (cancelled : Bool)
    (missing : store.cache.listing? key = none) (surroundings : Surroundings) :
    ∃ count watched prepared, count ≤ 4 ∧
      (step surroundings)^[count] (start file key cancelled, store) =
        (⟨file, key, cancelled, .prepared (store.cache.generation key) watched⟩, prepared) ∧
      prepared.cache.listing? key = none ∧
      prepared.cache.generation key = store.cache.generation key := by
  cases closed : store.cache.closed with
  | true =>
    exact ⟨2, false, store, by simp, by simp [step, advance, start, note, checkWatch, missing, closed],
      missing, rfl⟩
  | false =>
    cases watched : store.cache.isWatched key with
    | true =>
      exact ⟨2, true, store, by simp,
        by simp [step, advance, start, note, checkWatch, missing, closed, watched], missing, rfl⟩
    | false =>
      cases refused : surroundings.refuses with
      | true =>
        exact ⟨3, false, store, by simp,
          by simp [step, advance, start, note, checkWatch, missing, closed, watched, refused],
          missing, rfl⟩
      | false =>
        -- The page is not watched yet, so that the load subscribes and records that it has.
        refine ⟨4, true, { store with
            watcher := (store.watcher.subscribe key key).2
            cache := store.cache.record key (store.watcher.last + 1) }, Nat.le_refl 4, ?_, ?_, rfl⟩
        · simp [step, advance, start, note, checkWatch, settle, Watcher.subscribe, missing, closed,
            watched, refused]
        · rwa [Cache.listing?_record]

theorem finish_prepared (file : String) (cancelled : Bool) {generation : Nat}
    (same : store.cache.generation key = generation) (watched : Bool) (surroundings : Surroundings) :
    ∃ result next,
      (step surroundings)^[3] (⟨file, key, cancelled, .prepared generation watched⟩, store) =
        (⟨file, key, cancelled, .finished result⟩, next) ∧
      result.map (·.content) = (start file key cancelled).reading surroundings.content ∧
      (next.cache.listing? key = store.cache.listing? key ∨
        ∃ listing, result = .ok listing ∧ next.cache.listing? key = some listing) := by
  cases cancelled with
  | true => simp [step, advance, reading, start, Except.map]
  | false =>
    obtain ⟨refuses, content⟩ := surroundings
    cases content with
    | none => simp [step, advance, reading, start, Except.map]
    | some text =>
      cases parsed : Page.entries text file with
      | error error => simp [step, advance, reading, start, publish, parsed, Except.map, Except.mapError]
      | ok entries =>
        cases kept : watched && !store.cache.closed <;>
          simp [step, advance, reading, start, publish, parsed, same, kept, Except.map,
            Except.mapError]

theorem run_of_missing (file : String) (cancelled : Bool)
    (missing : store.cache.listing? key = none) (surroundings : Surroundings) :
    ∃ result next, (start file key cancelled).run surroundings store = (result, next) ∧
      result.map (·.content) = (start file key cancelled).reading surroundings.content ∧
      (next.cache.listing? key = none ∨
        ∃ listing, result = .ok listing ∧ next.cache.listing? key = some listing) := by
  obtain ⟨count, watched, prepared, early, reached, unheld, noted⟩ :=
    exists_prepared file cancelled missing surroundings
  obtain ⟨result, next, finished, read, kept⟩ :=
    finish_prepared file cancelled noted watched surroundings
  rw [unheld] at kept
  refine ⟨result, next, ?_, read, kept⟩
  -- The steps that are left over find the load finished.
  have resting : step surroundings (⟨file, key, cancelled, .finished result⟩, next) =
      (⟨file, key, cancelled, .finished result⟩, next) := rfl
  have steps : stepLimit = (5 - count) + (3 + count) := by
    simp only [stepLimit]
    omega
  have ended : Nat.repeat (step surroundings) stepLimit (start file key cancelled, store) =
      (⟨file, key, cancelled, .finished result⟩, next) := by
    rw [repeat_eq_iterate, steps, Function.iterate_add_apply, Function.iterate_add_apply, reached,
      finished, Function.iterate_fixed resting]
  simp only [run, ended, result?, Option.getD_some]

/-- A load after a load of the same page answers alike. -/
theorem run_again (file : String) (key : PageKey) (cancelled : Bool) (surroundings : Surroundings)
    (store : Store) :
    ((start file key cancelled).run surroundings
        ((start file key cancelled).run surroundings store).2).1.map (·.content) =
      ((start file key cancelled).run surroundings store).1.map (·.content) := by
  cases held : store.cache.listing? key with
  | some listing => rw [run_of_kept file cancelled held, run_of_kept file cancelled held]
  | none =>
    obtain ⟨result, next, ran, read, kept⟩ := run_of_missing file cancelled held surroundings
    rw [ran]
    rcases kept with unheld | ⟨listing, rfl, kept⟩
    · obtain ⟨again, _, rerun, reread, _⟩ := run_of_missing file cancelled unheld surroundings
      rw [rerun, reread, read]
    · rw [run_of_kept file cancelled kept]

end Load

end RulesAssist.Coverage
