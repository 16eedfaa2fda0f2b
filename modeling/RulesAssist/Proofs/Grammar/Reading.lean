import RulesAssist.Grammar.Reader
import RulesAssist.Proofs.Grammar.Reference

/-! A grammar that was read gives every name once.

Maps are read with their last values under distinct keys, whatever the text repeats.
-/

set_option autoImplicit false

namespace RulesAssist

namespace Json

variable {Result : Type}

theorem mem_of_mapM {Source : Type} {read : Source → Option Result} :
    ∀ {sources : List Source} {results : List Result}, sources.mapM read = some results →
      ∀ result ∈ results, ∃ source ∈ sources, read source = some result
  | [], results, same => by
    cases same
    nofun
  | source :: rest, results, same => by
    simp only [List.mapM_cons, bind, Option.bind_eq_some_iff, pure, Option.some.injEq] at same
    obtain ⟨first, got, others, gotten, rfl⟩ := same
    intro result member
    rcases List.mem_cons.mp member with rfl | later
    · exact ⟨source, List.mem_cons_self .., got⟩
    · obtain ⟨other, known, reads⟩ := mem_of_mapM gotten result later
      exact ⟨other, List.mem_cons_of_mem _ known, reads⟩

theorem map_spec {reader : Reader Result} {depth : Nat} {tree : Tree}
    {entries : List (String × Result)} (read : Reader.map reader depth tree = some entries) :
    (Keyed.keys entries).Nodup ∧
      ∀ entry ∈ entries, ∃ inner, reader (depth - 1) inner = some entry.2 := by
  unfold Reader.map at read
  split at read
  · simp only [bind, Option.bind_eq_some_iff, pure, Option.some.injEq] at read
    obtain ⟨named, _, results, gotten, rfl⟩ := read
    -- Whatever was repeated in the text, merging leaves one entry for each key.
    refine ⟨@Keyed.nodup_keys_merge _ _ _ [] List.nodup_nil results, ?_⟩
    intro entry member
    rcases Keyed.mem_merge member with none | known
    · cases none
    · obtain ⟨source, _, reads⟩ := mem_of_mapM gotten entry known
      obtain ⟨result, got, rfl⟩ := Option.map_eq_some_iff.mp reads
      exact ⟨source.2, got⟩
  · cases read

theorem optional_cases {reader : Reader Result} {depth : Nat} {tree : Tree} {result : Option Result}
    (read : Reader.optional reader depth tree = some result) :
    result = none ∨ ∃ value, result = some value ∧ reader depth tree = some value := by
  unfold Reader.optional at read
  split at read
  · exact .inl (Option.some.inj read).symm
  · obtain ⟨value, got, rfl⟩ := Option.map_eq_some_iff.mp read
    exact .inr ⟨value, rfl, got⟩

theorem withDefault_cases {slots : Slots} {name : String} {default result : Result}
    {reader : Tree → Option Result} (read : slots.withDefault name default reader = some result) :
    result = default ∨ ∃ tree, reader tree = some result := by
  unfold Slots.withDefault at read
  split at read
  · exact .inl (Option.some.inj read).symm
  · exact .inr ⟨_, read⟩

end Json

open Json

theorem TypeDecl.throughout_of_read (depth : Nat) : ∀ (tree : Tree) (decl : TypeDecl),
    TypeDecl.read depth tree = some decl →
      decl.Throughout fun fields => (Keyed.keys fields).Nodup := by
  -- A type and its fields open two containers, so fields are read two levels down.
  induction depth using Nat.strongRecOn with
  | ind depth ih =>
    intro tree decl read
    cases depth with
    | zero => cases read
    | succ depth =>
      simp only [TypeDecl.read, bind, Option.bind_eq_some_iff, pure, Option.some.injEq] at read
      obtain ⟨slots, _, about, _, methods, _, fields, given, basic, _, rfl⟩ := read
      apply TypeDecl.throughout_iff.mpr
      rintro own rfl
      obtain missing | ⟨inner, reads⟩ := withDefault_cases given
      · cases missing
      · obtain null | ⟨those, same, reads⟩ := optional_cases reads
        · cases null
        · cases same
          cases depth with
          | zero => cases reads
          | succ depth =>
            obtain ⟨distinct, entries⟩ := map_spec reads
            refine ⟨distinct, ?_⟩
            intro field member
            obtain ⟨source, got⟩ := entries field member
            exact ih depth (by omega) source field.2 got

namespace Grammar

theorem distinct_of_map {slots : Slots} {name : String} {depth : Nat}
    {types : List (String × TypeDecl)}
    (read : slots.withDefault name [] (Reader.map TypeDecl.read depth) = some types) :
    (Keyed.keys types).Nodup ∧
      ∀ entry ∈ types, entry.2.Throughout fun fields => (Keyed.keys fields).Nodup := by
  obtain rfl | ⟨tree, reads⟩ := withDefault_cases read
  · exact ⟨List.nodup_nil, nofun⟩
  · obtain ⟨distinct, entries⟩ := map_spec reads
    refine ⟨distinct, ?_⟩
    intro entry member
    obtain ⟨inner, got⟩ := entries entry member
    exact TypeDecl.throughout_of_read _ inner entry.2 got

/-- No text holds a grammar that gives a name twice. -/
theorem distinct_of_parse {text : String} {grammar : Grammar} (parsed : parse text = some grammar) :
    grammar.Distinct := by
  unfold parse Reader.parse reader at parsed
  obtain ⟨tree, _, read⟩ := Option.bind_eq_some_iff.mp parsed
  obtain ⟨slots, _, fields⟩ := Option.bind_eq_some_iff.mp read
  simp only [bind, Option.bind_eq_some_iff, pure, Option.some.injEq] at fields
  obtain ⟨modifiers, _, basicTypes, basics, types, roots, rfl⟩ := fields
  exact ⟨(distinct_of_map basics).1, (distinct_of_map roots).1, (distinct_of_map basics).2,
    (distinct_of_map roots).2⟩

end Grammar

end RulesAssist
