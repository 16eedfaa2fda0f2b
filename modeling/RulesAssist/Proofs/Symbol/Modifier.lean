import Mathlib
import RulesAssist.Keyed
import RulesAssist.Symbol.Modifier

/-! Which modifiers a compiled modifier includes.

A modifier is compiled once, with what is at hand then of the modifiers that it names, and whatever includes it
has the one that was compiled. What is not at hand is under way, and what is under way leads to everything that
is compiled meanwhile. So a name is left out only if no modifier bears it, or if its first bearer leads back to
the modifier that includes it.
-/

set_option autoImplicit false

namespace RulesAssist.ModifierSymbol

/-- The modifier at the first place includes a name whose first bearer is at the second place. -/
def Names (decls : List ModifierDecl) (place target : Nat) : Prop :=
  ∃ decl name, decls[place]? = some decl ∧ name ∈ decl.includeNames.getD [] ∧
    decls.findIdx? (·.name == name) = some target

/-- What is finished stays so, and nothing is finished that is under way. -/
structure Grows (underWay : List Nat) (finished later : Finished) : Prop where
  kept : ∀ place symbol, finished.lookup place = some symbol → later.lookup place = some symbol
  spared : ∀ place ∈ underWay, later.lookup place = finished.lookup place

variable {decls : List ModifierDecl} {underWay : List Nat} {finished later last : Finished}
  {place : Nat}

theorem Grows.refl (underWay : List Nat) (finished : Finished) : Grows underWay finished finished :=
  ⟨fun _ _ => id, fun _ _ => rfl⟩

theorem Grows.trans (first : Grows underWay finished later) (second : Grows underWay later last) :
    Grows underWay finished last where
  kept := fun place symbol done => second.kept place symbol (first.kept place symbol done)
  spared := fun place member => (second.spared place member).trans (first.spared place member)

theorem Grows.fewer (grows : Grows (place :: underWay) finished later) :
    Grows underWay finished later :=
  ⟨grows.kept, fun other member => grows.spared other (List.mem_cons_of_mem _ member)⟩

theorem Grows.cons (missing : later.lookup place = none) (idle : place ∉ underWay)
    (symbol : ModifierSymbol) : Grows underWay later ((place, symbol) :: later) where
  kept := by
    intro other known done
    rw [Keyed.lookup_cons, if_neg]
    · exact done
    · rintro rfl
      rw [missing] at done
      cases done
  spared := by
    intro other member
    rw [Keyed.lookup_cons, if_neg]
    rintro rfl
    exact idle member

theorem bearer_of_findIdx? {name : String} {target : Nat}
    (found : decls.findIdx? (·.name == name) = some target) :
    ∃ decl, decls[target]? = some decl ∧ decl.name = name := by
  obtain ⟨bound, same, _⟩ := List.findIdx?_eq_some_iff_getElem.mp found
  exact ⟨decls[target], List.getElem?_eq_getElem bound, beq_iff_eq.mp same⟩

/-- What is at hand of the first modifier that bears a name. -/
def atHand? (decls : List ModifierDecl) (finished : Finished) (name : String) : Option ModifierSymbol :=
  (decls.findIdx? (·.name == name)).bind fun target => finished.lookup target

/-- A modifier has joined the modifiers that were at hand at some earlier moment. Those that were not lead
back to it. -/
def Joined (decls : List ModifierDecl) (finished : Finished) (place : Nat) (symbol : ModifierSymbol) :
    Prop :=
  ∃ decl earlier, decls[place]? = some decl ∧
    (∀ target known, earlier.lookup target = some known → finished.lookup target = some known) ∧
    symbol = ⟨place, decl.name, decl.about, decl.includeNames,
      decl.includeNames.map (·.filterMap (atHand? decls earlier))⟩ ∧
    ∀ target, Names decls place target → earlier.lookup target = none →
      Relation.ReflTransGen (Names decls) target place

structure Settled (decls : List ModifierDecl) (finished : Finished) : Prop where
  once : (Keyed.keys finished).Nodup
  joined : ∀ place symbol, finished.lookup place = some symbol → Joined decls finished place symbol

theorem Joined.mono (grows : Grows underWay finished later) {symbol : ModifierSymbol}
    (joined : Joined decls finished place symbol) : Joined decls later place symbol := by
  obtain ⟨decl, earlier, found, kept, same, leads⟩ := joined
  exact ⟨decl, earlier, found, fun target known had => grows.kept _ _ (kept target known had), same, leads⟩

theorem Settled.cons (settled : Settled decls finished) (missing : finished.lookup place = none)
    (idle : place ∉ underWay) {symbol : ModifierSymbol} (joined : Joined decls finished place symbol) :
    Settled decls ((place, symbol) :: finished) := by
  have grows : Grows underWay finished ((place, symbol) :: finished) := .cons missing idle symbol
  refine ⟨List.nodup_cons.mpr ⟨?_, settled.once⟩, ?_⟩
  · intro member
    obtain ⟨entry, listed, same⟩ := List.mem_map.mp member
    exact absurd same.symm (bne_iff_ne.mp (List.lookup_eq_none_iff.mp missing entry listed))
  · intro other known done
    rw [Keyed.lookup_cons] at done
    split at done
    · rename_i same
      cases done
      exact same ▸ joined.mono grows
    · exact (settled.joined other known done).mono grows

/-- A modifier can be asked for, and what is had is what is kept of it. -/
def Settles (decls : List ModifierDecl) (underWay : List Nat) (place : Nat) (finished : Finished)
    (result : Option ModifierSymbol × Finished) : Prop :=
  Settled decls finished → Settled decls result.2 ∧ Grows underWay finished result.2 ∧
    result.1 = result.2.lookup place ∧ (result.1 = none → place ∈ underWay)

theorem settled_includesOf {resolve : Nat → Finished → Option ModifierSymbol × Finished} :
    ∀ (names : List String) (finished : Finished),
      (∀ name ∈ names, ∀ target, decls.findIdx? (·.name == name) = some target →
        ∀ between, Settles decls underWay target between (resolve target between)) →
      Settled decls finished →
      let included := includesOf decls resolve names finished
      Settled decls included.2 ∧ Grows underWay finished included.2 ∧
        included.1 = names.filterMap (atHand? decls included.2) ∧
        ∀ name ∈ names, ∀ target, decls.findIdx? (·.name == name) = some target →
          included.2.lookup target = none → target ∈ underWay
  | [], finished, _, settled => ⟨settled, .refl _ _, rfl, nofun⟩
  | name :: rest, finished, settles, settled => by
    have others : ∀ other ∈ rest, ∀ target, decls.findIdx? (·.name == other) = some target →
        ∀ between, Settles decls underWay target between (resolve target between) :=
      fun other member => settles other (List.mem_cons_of_mem _ member)
    unfold includesOf
    cases found : decls.findIdx? (·.name == name) with
    | none =>
      obtain ⟨last, grows, same, left⟩ := settled_includesOf rest finished others settled
      refine ⟨last, grows, ?_, List.forall_mem_cons.mpr ⟨?_, left⟩⟩
      · rw [List.filterMap_cons_none]
        · exact same
        · rw [atHand?, found, Option.bind_none]
      · intro target bears
        rw [found] at bears
        cases bears
    | some target =>
      obtain ⟨next, first, had, busy⟩ :=
        settles name (List.mem_cons_self ..) target found finished settled
      dsimp only
      generalize resolve target finished = result at next first had busy ⊢
      obtain ⟨symbol, between⟩ := result
      obtain ⟨last, onward, same, left⟩ := settled_includesOf rest between others next
      -- What is under way is spared, and what is at hand stays, so the target is had as it was.
      have still : (includesOf decls resolve rest between).2.lookup target = symbol := by
        cases symbol with
        | some known => exact onward.kept target known had.symm
        | none => exact (onward.spared target (busy rfl)).trans had.symm
      refine ⟨last, first.trans onward, ?_, List.forall_mem_cons.mpr ⟨?_, left⟩⟩
      · have here : atHand? decls (includesOf decls resolve rest between).2 name = symbol := by
          rw [atHand?, found, Option.bind_some, still]
        cases symbol with
        | none => rw [List.filterMap_cons_none here, ← same, Option.toList_none, List.nil_append]
        | some known => rw [List.filterMap_cons_some here, ← same, Option.toList_some, List.singleton_append]
      · intro other bears missing
        rw [found, Option.some.injEq] at bears
        subst bears
        exact busy (still.symm.trans missing)

/-- A modifier is asked for while others are under way. They differ, and they lead to it. -/
structure Asked (decls : List ModifierDecl) (underWay : List Nat) (place : Nat) : Prop where
  distinct : underWay.Nodup
  known : ∀ other ∈ underWay, other < decls.length
  listed : place < decls.length
  leads : ∀ other ∈ underWay, Relation.ReflTransGen (Names decls) other place

theorem Asked.busy (asked : Asked decls underWay place) (full : decls.length ≤ underWay.length) :
    place ∈ underWay := by
  by_contra idle
  have within : place :: underWay ⊆ List.range decls.length :=
    List.forall_mem_cons.mpr ⟨List.mem_range.mpr asked.listed,
      fun other member => List.mem_range.mpr (asked.known other member)⟩
  have bigger := (List.nodup_cons.mpr ⟨idle, asked.distinct⟩).length_le_of_subset within
  rw [List.length_cons, List.length_range] at bigger
  omega

theorem Asked.onward (asked : Asked decls underWay place) (idle : place ∉ underWay) {target : Nat}
    (names : Names decls place target) : Asked decls (place :: underWay) target where
  distinct := List.nodup_cons.mpr ⟨idle, asked.distinct⟩
  known := List.forall_mem_cons.mpr ⟨asked.listed, asked.known⟩
  listed := by
    obtain ⟨_, _, _, _, bears⟩ := names
    exact (List.findIdx?_eq_some_iff_getElem.mp bears).1
  leads := List.forall_mem_cons.mpr ⟨.single names, fun other earlier =>
    .tail (asked.leads other earlier) names⟩

def assemble (decls : List ModifierDecl) (resolve : Nat → Finished → Option ModifierSymbol × Finished)
    (place : Nat) (decl : ModifierDecl) (finished : Finished) : Option ModifierSymbol × Finished :=
  match decl.includeNames with
  | none =>
    let symbol : ModifierSymbol := ⟨place, decl.name, decl.about, none, none⟩
    (some symbol, (place, symbol) :: finished)
  | some names =>
    let included := includesOf decls resolve names finished
    let symbol : ModifierSymbol := ⟨place, decl.name, decl.about, some names, some included.1⟩
    (some symbol, (place, symbol) :: included.2)

/-- What holds of a modifier that is finished, of one that is under way, and of one that is compiled when it
holds of those that it names, holds of every modifier that may be asked for. -/
theorem resolve_rule {right : List Nat → Nat → Finished → Option ModifierSymbol × Finished → Prop}
    (had : ∀ underWay place finished symbol, finished.lookup place = some symbol →
      right underWay place finished (some symbol, finished))
    (circular : ∀ underWay place finished, place ∈ underWay → finished.lookup place = none →
      right underWay place finished (none, finished))
    (compiled : ∀ (resolve : Nat → Finished → Option ModifierSymbol × Finished) underWay place finished
      decl, Asked decls underWay place → place ∉ underWay → finished.lookup place = none →
      decls[place]? = some decl → (∀ target, Names decls place target → ∀ between,
        right (place :: underWay) target between (resolve target between)) →
      right underWay place finished (assemble decls resolve place decl finished))
    (depth : Nat) : ∀ (underWay : List Nat) (place : Nat) (finished : Finished),
      Asked decls underWay place → decls.length ≤ depth + underWay.length →
      right underWay place finished (resolve decls depth underWay place finished) := by
  -- One more modifier under way is one step less of depth, so their sum stays large enough.
  induction depth with
  | zero =>
    intro underWay place finished asked bound
    unfold resolve
    cases memo : finished.lookup place with
    | some done => exact had underWay place finished done memo
    | none => exact circular underWay place finished (asked.busy (by omega)) memo
  | succ depth ih =>
    intro underWay place finished asked bound
    unfold resolve
    cases memo : finished.lookup place with
    | some done => exact had underWay place finished done memo
    | none =>
      obtain ⟨decl, found⟩ : ∃ decl, decls[place]? = some decl :=
        ⟨_, List.getElem?_eq_getElem asked.listed⟩
      simp only [found]
      by_cases busy : place ∈ underWay
      · rw [if_pos busy]
        exact circular underWay place finished busy memo
      · rw [if_neg busy]
        refine compiled _ underWay place finished decl asked busy memo found fun target names between => ?_
        refine ih (place :: underWay) target between (asked.onward busy names) ?_
        rw [List.length_cons]
        omega

theorem settles_resolve (depth : Nat) : ∀ (underWay : List Nat) (place : Nat) (finished : Finished),
    Asked decls underWay place → decls.length ≤ depth + underWay.length →
    Settles decls underWay place finished (resolve decls depth underWay place finished) := by
  refine resolve_rule ?_ ?_ ?_ depth
  · exact fun _ _ _ _ memo settled => ⟨settled, .refl _ _, memo.symm, nofun⟩
  · exact fun _ _ _ busy memo settled => ⟨settled, .refl _ _, memo.symm, fun _ => busy⟩
  · intro resolve underWay place finished decl asked idle missing found settles settled
    unfold assemble
    cases given : decl.includeNames with
    | none =>
      -- Without includes nothing is left out.
      have joined : Joined decls finished place ⟨place, decl.name, decl.about, none, none⟩ := by
        refine ⟨decl, finished, found, fun _ _ => id, by rw [given]; rfl, ?_⟩
        rintro target ⟨_, name, again, named, _⟩
        rw [found, Option.some.injEq] at again
        subst again
        rw [given] at named
        cases named
      exact ⟨settled.cons missing idle joined, .cons missing idle _, List.lookup_cons_self.symm, nofun⟩
    | some names =>
      have named : ∀ name ∈ names, ∀ target, decls.findIdx? (·.name == name) = some target →
          ∀ between, Settles decls (place :: underWay) target between (resolve target between) :=
        fun name member target bears between =>
          settles target ⟨decl, name, found, by simp [given, member], bears⟩ between
      -- The place is under way while its includes are settled, so what they leave out leads back to it.
      obtain ⟨last, grows, same, left⟩ := settled_includesOf names finished named settled
      dsimp only
      generalize includesOf decls resolve names finished = included at last grows same left ⊢
      have new : included.2.lookup place = none :=
        (grows.spared place (List.mem_cons_self ..)).trans missing
      have joined : Joined decls included.2 place
          ⟨place, decl.name, decl.about, some names, some included.1⟩ := by
        refine ⟨decl, included.2, found, fun _ _ => id, by rw [given, same]; rfl, ?_⟩
        rintro target ⟨_, name, again, named, bears⟩ absent
        rw [found, Option.some.injEq] at again
        subst again
        rw [given] at named
        rcases List.mem_cons.mp (left name named target bears absent) with rfl | earlier
        · exact .refl
        · exact asked.leads target earlier
      exact ⟨last.cons new idle joined, grows.fewer.trans (.cons new idle _),
        List.lookup_cons_self.symm, nofun⟩

def finishedBy (decls : List ModifierDecl) : List Nat → Finished → Finished
  | [], finished => finished
  | place :: rest, finished =>
    finishedBy decls rest (resolve decls decls.length [] place finished).2

theorem settled_compileFrom : ∀ (places : List Nat) (finished : Finished), Settled decls finished →
    (∀ place ∈ places, place < decls.length) →
    Settled decls (finishedBy decls places finished) ∧
      Grows [] finished (finishedBy decls places finished) ∧
      List.Forall₂ (fun place symbol => (finishedBy decls places finished).lookup place = some symbol)
        places (compileFrom decls places finished)
  | [], finished, settled, _ => ⟨settled, .refl _ _, .nil⟩
  | place :: rest, finished, settled, listed => by
    have asked : Asked decls [] place :=
      ⟨List.nodup_nil, nofun, listed place (List.mem_cons_self ..), nofun⟩
    obtain ⟨next, grows, had, missing⟩ :=
      settles_resolve decls.length [] place finished asked (Nat.le_refl _) settled
    unfold compileFrom finishedBy
    dsimp only
    generalize resolve decls decls.length [] place finished = result at next grows had missing ⊢
    obtain ⟨symbol, between⟩ := result
    obtain ⟨last, onward, all⟩ := settled_compileFrom rest between next
      fun other member => listed other (List.mem_cons_of_mem _ member)
    refine ⟨last, grows.trans onward, ?_⟩
    cases symbol with
    | none => exact absurd (missing rfl) List.not_mem_nil
    | some symbol => exact .cons (onward.kept place symbol had.symm) all

def allFinished (decls : List ModifierDecl) : Finished :=
  finishedBy decls (List.range decls.length) []

theorem compile_listed (decls : List ModifierDecl) : Settled decls (allFinished decls) ∧
    List.Forall₂ (fun place symbol => (allFinished decls).lookup place = some symbol)
      (List.range decls.length) (compile decls) := by
  have nothing : Settled decls [] := ⟨List.nodup_nil, nofun⟩
  obtain ⟨settled, _, all⟩ := settled_compileFrom (List.range decls.length) [] nothing
    fun place member => List.mem_range.mp member
  exact ⟨settled, all⟩

end RulesAssist.ModifierSymbol
