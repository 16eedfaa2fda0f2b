import RulesAssist.Proofs.Symbol.Modifier

/-! The includes of a compiled modifier, name by name.

They are the modifiers of the compiled list that come first under the names that are given, in the same order
and as often. Some names are omitted, and an omitted name that some modifier bears leads back.
-/

set_option autoImplicit false

namespace RulesAssist.ModifierSymbol

variable {decls : List ModifierDecl} {finished : Finished} {place : Nat}

theorem length_compile (decls : List ModifierDecl) : (compile decls).length = decls.length := by
  rw [← (compile_listed decls).2.length_eq, List.length_range]

theorem getElem?_compile (bound : place < decls.length) :
    (compile decls)[place]? = (allFinished decls).lookup place := by
  have known : place < (compile decls).length := (length_compile decls).symm ▸ bound
  have done := (compile_listed decls).2.get (by rwa [List.length_range]) known
  simp only [List.get_eq_getElem, List.getElem_range] at done
  rw [done, List.getElem?_eq_getElem known]

/-- The compiled modifier at the first place whose modifier bears a name. -/
def firstBearer? (decls : List ModifierDecl) (name : String) : Option ModifierSymbol :=
  (decls.findIdx? (·.name == name)).bind fun target => (compile decls)[target]?

theorem firstBearer?_of_atHand? {name : String} {symbol : ModifierSymbol}
    (kept : ∀ target known, finished.lookup target = some known →
      (allFinished decls).lookup target = some known)
    (had : atHand? decls finished name = some symbol) : firstBearer? decls name = some symbol := by
  obtain ⟨target, bears, there⟩ := Option.bind_eq_some_iff.mp had
  rw [firstBearer?, bears, Option.bind_some,
    getElem?_compile (List.findIdx?_eq_some_iff_getElem.mp bears).1]
  exact kept target symbol there

theorem map_some_filterMap {known there : String → Option ModifierSymbol}
    (agree : ∀ name symbol, known name = some symbol → there name = some symbol) (names : List String) :
    (names.filterMap known).map some = (names.filter fun name => (known name).isSome).map there := by
  induction names with
  | nil => rfl
  | cons name rest ih =>
    cases had : known name with
    | none => rw [List.filterMap_cons_none had, List.filter_cons_of_neg (by simp [had]), ih]
    | some symbol =>
      rw [List.filterMap_cons_some had, List.filter_cons_of_pos (by simp [had]), List.map_cons,
        List.map_cons, ih, agree name symbol had]

/-- A compiled modifier says what its declaration says. It includes the first bearers of the names that are
given, in their order and as often, but for omitted names: nothing bears such a name, or its first bearer
leads back. -/
structure Resolved (decls : List ModifierDecl) (place : Nat) (decl : ModifierDecl)
    (symbol : ModifierSymbol) (omitted : String → Bool) : Prop where
  stands : symbol.place = place
  name : symbol.name = decl.name
  about : symbol.about = decl.about
  includeNames : symbol.includeNames = decl.includeNames
  includes : symbol.includes.map (·.map some) = decl.includeNames.map fun names =>
    (names.filter fun name => !omitted name).map (firstBearer? decls)
  excused : ∀ name ∈ decl.includeNames.getD [], omitted name = true →
    (∀ other ∈ decls, other.name ≠ name) ∨
      ∃ target, decls.findIdx? (·.name == name) = some target ∧
        Relation.ReflTransGen (Names decls) target place
  straight : ∀ name ∈ decl.includeNames.getD [], ∀ target,
    decls.findIdx? (·.name == name) = some target →
    ¬ Relation.ReflTransGen (Names decls) target place → omitted name = false

theorem Joined.resolved {decl : ModifierDecl} {symbol : ModifierSymbol}
    (joined : Joined decls (allFinished decls) place symbol) (stands : decls[place]? = some decl) :
    ∃ omitted, Resolved decls place decl symbol omitted := by
  obtain ⟨_, earlier, found, kept, rfl, leads⟩ := joined
  rw [stands, Option.some.injEq] at found
  subst found
  have back : ∀ name ∈ decl.includeNames.getD [], ∀ target,
      decls.findIdx? (·.name == name) = some target → (atHand? decls earlier name).isNone = true →
      Relation.ReflTransGen (Names decls) target place := by
    intro name named target bears missing
    rw [atHand?, bears, Option.bind_some, Option.isNone_iff_eq_none] at missing
    exact leads target ⟨decl, name, stands, named, bears⟩ missing
  refine ⟨fun name => (atHand? decls earlier name).isNone, rfl, rfl, rfl, rfl, ?_, ?_, ?_⟩
  · cases decl.includeNames with
    | none => rfl
    | some names =>
      have agree : ∀ name symbol, atHand? decls earlier name = some symbol →
          firstBearer? decls name = some symbol := fun _ _ => firstBearer?_of_atHand? kept
      have same := map_some_filterMap agree names
      simpa only [Option.map_some, Option.not_isNone, Option.some.injEq] using same
  · intro name named missing
    cases bears : decls.findIdx? (·.name == name) with
    | none =>
      refine .inl fun other member => ?_
      simpa using List.findIdx?_eq_none_iff.mp bears other member
    | some target => exact .inr ⟨target, rfl, back name named target bears missing⟩
  · intro name named target bears apart
    exact Bool.eq_false_iff.mpr fun missing => apart (back name named target bears missing)

theorem exists_resolved {decl : ModifierDecl} (stands : decls[place]? = some decl) :
    ∃ symbol omitted, (compile decls)[place]? = some symbol ∧
      (allFinished decls).lookup place = some symbol ∧ Resolved decls place decl symbol omitted := by
  have listed := @getElem?_compile decls place (List.getElem?_eq_some_iff.mp stands).1
  have bound : place < (compile decls).length := by
    rw [length_compile]
    exact (List.getElem?_eq_some_iff.mp stands).1
  rw [List.getElem?_eq_getElem bound] at listed ⊢
  obtain ⟨omitted, resolved⟩ := ((compile_listed decls).1.joined place _ listed.symm).resolved stands
  exact ⟨_, omitted, rfl, listed.symm, resolved⟩

theorem name_of_firstBearer? {name : String} {symbol : ModifierSymbol}
    (first : firstBearer? decls name = some symbol) : symbol.name = name := by
  obtain ⟨target, bears, there⟩ := Option.bind_eq_some_iff.mp first
  obtain ⟨bearer, stands, same⟩ := bearer_of_findIdx? bears
  obtain ⟨_, _, listed, _, resolved⟩ := exists_resolved stands
  rw [there, Option.some.injEq] at listed
  rw [listed, resolved.name, same]

theorem Resolved.included {decl : ModifierDecl} {symbol : ModifierSymbol} {omitted : String → Bool}
    (resolved : Resolved decls place decl symbol omitted) {name : String}
    (named : name ∈ decl.includeNames.getD []) (kept : omitted name = false) :
    ∃ included ∈ symbol.includes.getD [], included.name = name := by
  have same := resolved.includes
  generalize decl.includeNames = names at named same
  cases names with
  | none => cases named
  | some names =>
    obtain ⟨symbols, had, parts⟩ := Option.map_eq_some_iff.mp same
    have listed : firstBearer? decls name ∈ symbols.map some := by
      rw [parts]
      exact List.mem_map_of_mem (List.mem_filter.mpr ⟨named, by rw [kept]; rfl⟩)
    obtain ⟨included, member, first⟩ := List.mem_map.mp listed
    exact ⟨included, by rw [had]; exact member, name_of_firstBearer? first.symm⟩

/-- Every modifier is compiled once and in its place. It includes the compiled modifiers that bear the names
that it gives, but for the names that nothing bears and for some that lead back to it. -/
theorem compile_resolves (decls : List ModifierDecl) :
    (compile decls).length = decls.length ∧ (Keyed.keys (allFinished decls)).Nodup ∧
      ∀ (place : Nat) (decl : ModifierDecl), decls[place]? = some decl →
        ∃ symbol omitted, (compile decls)[place]? = some symbol ∧
          (allFinished decls).lookup place = some symbol ∧
          Resolved decls place decl symbol omitted :=
  ⟨length_compile decls, (compile_listed decls).1.once, fun _ _ => exists_resolved⟩

/-- Two modifiers include each other: the one that is compiled for the other does not have it. -/
example : (compile [⟨"read", "", some ["write", "none", "write"]⟩, ⟨"write", "", some ["read", "all"]⟩,
    ⟨"read", "", none⟩, ⟨"all", "", some []⟩]).map (fun symbol => symbol.includes.map (·.map (·.place))) =
    [some [1, 1], some [3], none, some []] := by
  cbv

end RulesAssist.ModifierSymbol
