import RulesAssist.Proofs.Symbol.Everywhere
import RulesAssist.Proofs.Symbol.Survey

/-! A whole compilation, whatever the basic types name.

It ends and is orderly, and it tells of every type that is had from it. So the types of a table are those that
were made on the way, each of them once.
-/

set_option autoImplicit false

namespace RulesAssist.Workshop.Course

variable {grammar : Grammar} {deeds : List Deed} {name : String} {symbol : TypeSymbol}

def Told (tale : List Deed) (symbol : TypeSymbol) : Prop :=
  ∃ decl inherited, .made decl inherited symbol ∈ tale

def recording (grammar : Grammar) (tale : List Deed) : Survey grammar tale Unit where
  stands _ _ := True
  sound _ := True
  later _ _ _ := True
  begun _ _ _ inherited _ := ∀ basic, inherited = some basic → basic.Everywhere (Told tale)
  right _ _ _ symbol := symbol.Everywhere (Told tale)

theorem recording_lawful (grammar : Grammar) (tale : List Deed) : (recording grammar tale).Lawful where
  passes := Grammar.passes_trivially
  refl _ := trivial
  trans _ _ := trivial
  begun_later _ begun := begun
  right_later _ right := right
  lose _ _ _ _ _ _ _ _ := ⟨(), trivial, trivial⟩
  equip := by
    intro now place decl inherited taken good _ base _
    refine ⟨(), trivial, trivial, ?_⟩
    rintro basic rfl
    obtain ⟨_, _, _, _, right⟩ := good.inherited base
    exact right
  finish := by
    intro now place decl inherited table fields _ _ begun composes _ told
    exact ⟨(), trivial, trivial, TypeSymbol.everywhere_of_composes ⟨decl, inherited, told⟩ begun composes⟩
  keep _ _ _ _ _ _ _ _ := ⟨(), trivial, trivial⟩

theorem made_of_type?
    (compiles : CompilesRoots grammar.basicTypes ⟨∅, prepareAll grammar.basicTypes empty⟩ grammar.types
      deeds (run grammar).1 ⟨∅, (run grammar).2⟩)
    (found : (SymbolTable.compile grammar).type? name = some symbol) : Told deeds symbol := by
  obtain ⟨_, _, _, each⟩ := (recording_lawful grammar deeds).run compiles () trivial
  refine SymbolTable.holds_of_type? (fun root member => ?_) found
  obtain ⟨_, _, right⟩ := each.exists_of_mem member
  exact right

/-- A compilation ends, whatever the basic types name, and each of them is compiled once at most. -/
theorem run_orderly (grammar : Grammar) :
    (∀ now name, ∃! course : List Deed × Option TypeSymbol × Progress,
      Asks grammar.basicTypes now name course.1 course.2.1 course.2.2) ∧
    (∀ now site decl, ∃! course : List Deed × TypeSymbol × Progress,
      Compiles grammar.basicTypes now site decl course.1 course.2.1 course.2.2) ∧
    (∀ now name deeds answer later,
      Asks grammar.basicTypes now name deeds answer later → Orderly now deeds later) ∧
    (∀ now site decl deeds symbol later,
      Compiles grammar.basicTypes now site decl deeds symbol later → Orderly now deeds later) ∧
    ∃ deeds, CompilesRoots grammar.basicTypes ⟨∅, prepareAll grammar.basicTypes empty⟩ grammar.types deeds
        (run grammar).1 ⟨∅, (run grammar).2⟩ ∧
      Orderly ⟨∅, prepareAll grammar.basicTypes empty⟩ deeds ⟨∅, (run grammar).2⟩ ∧
      ∀ name symbol, (SymbolTable.compile grammar).type? name = some symbol →
        ∃ decl inherited, .made decl inherited symbol ∈ deeds := by
  refine ⟨existsUnique_asks grammar, existsUnique_compiles grammar, fun _ _ _ _ _ => Asks.orderly,
    fun _ _ _ _ _ _ => Compiles.orderly, ?_⟩
  obtain ⟨deeds, compiles⟩ := exists_run grammar
  exact ⟨deeds, compiles, compiles.orderly, fun name symbol => made_of_type? compiles⟩

-- Of two basic types that name each other, the one that is asked for first is finished last.
example : Keyed.keys (run {
    accessModifiers := []
    basicTypes := [("a", ⟨"A", none, none, some "b"⟩), ("b", ⟨"B", none, none, some "a"⟩)]
    types := [("one", ⟨"1", none, none, some "a"⟩), ("two", ⟨"2", none, none, some "b"⟩)] }).2.basicTypes =
    ["a", "b"] := by cbv

end RulesAssist.Workshop.Course
