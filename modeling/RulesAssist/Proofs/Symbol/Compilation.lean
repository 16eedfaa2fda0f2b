import RulesAssist.Proofs.Grammar.Occurrence
import RulesAssist.Proofs.Symbol.Shows
import RulesAssist.Symbol.Compilation

/-! What the steps of a compilation do.

Methods are made as new objects, and nothing but the method names is touched by that. A type takes the methods
that it inherits, those that are in stock for its path, or new ones.
-/

set_option autoImplicit false

namespace RulesAssist

def Occurrence.site (place : Occurrence) : Site := ⟨place.path, place.inBasicType⟩

theorem Occurrence.site_below (place : Occurrence) (key : String) :
    (place.below [key]).site = place.site.child key := by
  rw [site, path_below]
  rfl

namespace Workshop

/-- New objects were made and methods entered, and that is all. -/
structure Adds (workshop next : Workshop) : Prop where
  prepared : next.prepared = workshop.prepared
  basicTypes : next.basicTypes = workshop.basicTypes
  omissions : next.omissions = workshop.omissions
  fresh : workshop.fresh ≤ next.fresh

theorem Adds.trans {workshop next last : Workshop} (first : Adds workshop next) (second : Adds next last) :
    Adds workshop last where
  prepared := second.prepared.trans first.prepared
  basicTypes := second.basicTypes.trans first.basicTypes
  omissions := second.omissions.trans first.omissions
  fresh := first.fresh.trans second.fresh

theorem adds_fresh (workshop : Workshop) : Adds workshop { workshop with fresh := workshop.fresh + 1 } :=
  ⟨rfl, rfl, rfl, Nat.le_succ _⟩

theorem adds_enter (workshop : Workshop) (name : String) (method : Shared MethodInfo) :
    Adds workshop (workshop.enter name method) := by
  unfold enter
  split
  · exact ⟨rfl, rfl, rfl, Nat.le_refl _⟩
  · exact ⟨rfl, rfl, rfl, Nat.le_succ _⟩

theorem adds_makeMethods (decls : List (String × MethodDecl)) (workshop : Workshop) :
    Adds workshop (makeMethods decls workshop).2 := by
  induction decls generalizing workshop with
  | nil => exact ⟨rfl, rfl, rfl, Nat.le_refl _⟩
  | cons entry rest ih => exact ((adds_fresh workshop).trans (adds_enter ..)).trans (ih _)

theorem adds_makeTable (decls : List (String × MethodDecl)) (workshop : Workshop) :
    Adds workshop (makeTable decls workshop).2 :=
  (adds_makeMethods decls workshop).trans (adds_fresh _)

theorem contents_makeMethods (decls : List (String × MethodDecl)) (workshop : Workshop) :
    contentsOf (makeMethods decls workshop).1 = infosOf decls := by
  induction decls generalizing workshop with
  | nil => rfl
  | cons entry rest ih => exact congrArg (_ :: ·) (ih _)

theorem contents_makeTable (decls : List (String × MethodDecl)) (workshop : Workshop) :
    contentsOf (makeTable decls workshop).1.content = infosOf decls :=
  contents_makeMethods decls workshop

theorem identity_makeTable (decls : List (String × MethodDecl)) (workshop : Workshop) :
    workshop.fresh ≤ (makeTable decls workshop).1.identity ∧
      (makeTable decls workshop).1.identity < (makeTable decls workshop).2.fresh :=
  ⟨(adds_makeMethods decls workshop).fresh, Nat.lt_succ_self _⟩

/-- Where the methods of a type come from. -/
inductive Equips (site : Site) (workshop : Workshop) : Option TypeSymbol →
    Option (List (String × MethodDecl)) → Option (Shared MethodTable) × Workshop → Prop where
  | shared {basic : TypeSymbol} : Equips site workshop (some basic) none (basic.methods, workshop)
  | replaced {basic : TypeSymbol} {decls : List (String × MethodDecl)} :
      Equips site workshop (some basic) (some decls)
        (basic.methods, { workshop with omissions := workshop.omissions ++ [.methods site.path] })
  | bare : Equips site workshop none none (none, workshop)
  | stocked {decls : List (String × MethodDecl)} {table : Shared MethodTable} :
      site.inBasicType = true → workshop.prepared.lookup site.path = some table →
      Equips site workshop none (some decls) (some table, workshop)
  | made {decls : List (String × MethodDecl)} :
      (site.inBasicType = true → workshop.prepared.lookup site.path = none) →
      Equips site workshop none (some decls)
        (some (makeTable decls workshop).1, (makeTable decls workshop).2)

theorem equips_takeMethods (site : Site) (inherited : Option TypeSymbol)
    (methods : Option (List (String × MethodDecl))) (workshop : Workshop) :
    Equips site workshop inherited methods (takeMethods site inherited methods workshop) := by
  cases inherited with
  | some basic =>
    cases methods with
    | none => exact .shared
    | some decls => exact .replaced
  | none =>
    cases methods with
    | none => exact .bare
    | some decls =>
      simp only [takeMethods]
      split
      · rename_i table found
        split at found
        · exact .stocked ‹_› found
        · cases found
      · rename_i missing
        exact .made fun inside => (if_pos inside).symm.trans missing

variable {site : Site} {workshop : Workshop} {inherited : Option TypeSymbol}
  {methods : Option (List (String × MethodDecl))} {taken : Option (Shared MethodTable) × Workshop}

theorem Equips.basicTypes (equips : Equips site workshop inherited methods taken) :
    taken.2.basicTypes = workshop.basicTypes := by
  cases equips with
  | shared | replaced | bare | stocked => rfl
  | made => exact (adds_makeTable _ workshop).basicTypes

theorem Equips.fresh (equips : Equips site workshop inherited methods taken) :
    workshop.fresh ≤ taken.2.fresh := by
  cases equips with
  | shared | replaced | bare | stocked => exact Nat.le_refl _
  | made => exact (adds_makeTable _ workshop).fresh

theorem takeMethods_of_some (site : Site) (basic : TypeSymbol)
    (methods : Option (List (String × MethodDecl))) (workshop : Workshop) :
    (takeMethods site (some basic) methods workshop).1 = basic.methods := by
  cases methods <;> rfl

end Workshop

end RulesAssist
