import Mathlib
import RulesAssist.Symbol.Compilation

/-! What stands under a method name.

The methods made so far are listed in the order in which they were made. The first one of a name is entered
itself. Every later one is merged into what was entered before, and that makes an object which is none of
the methods.
-/

set_option autoImplicit false

namespace RulesAssist.Workshop

abbrev Methods := List (String × Shared MethodInfo)

def Methods.named (made : Methods) (name : String) : List (Shared MethodInfo) :=
  (made.filter (·.1 == name)).map (·.2)

def merged (first : Shared MethodInfo) (others : List (Shared MethodInfo)) : MethodInfo :=
  others.foldl (fun info method => info.merge method.content.about) first.content

inductive Entered (made : Methods) : List (Shared MethodInfo) → Option (Shared MethodInfo) → Prop where
  | nothing : Entered made [] none
  | itself {method : Shared MethodInfo} : Entered made [method] (some method)
  | merged {first second entered : Shared MethodInfo} {others : List (Shared MethodInfo)} :
      (∀ entry ∈ made, entry.2.identity ≠ entered.identity) →
      entered.content = Workshop.merged first (second :: others) →
      Entered made (first :: second :: others) (some entered)

/-- The names stand for what was made under them. -/
structure Cached (made : Methods) (workshop : Workshop) : Prop where
  entered : ∀ name, Entered made (made.named name) (workshop.methods.lookup name)
  made : ∀ entry ∈ made, entry.2.identity < workshop.fresh
  kept : ∀ name method, workshop.methods.lookup name = some method → method.identity < workshop.fresh

variable {made : Methods} {workshop next : Workshop}

theorem Methods.named_append (made more : Methods) (name : String) :
    Methods.named (made ++ more) name = made.named name ++ more.named name := by
  unfold named
  rw [List.filter_append, List.map_append]

theorem Methods.named_singleton (name wanted : String) (method : Shared MethodInfo) :
    Methods.named [(name, method)] wanted = if name = wanted then [method] else [] := by
  by_cases same : name = wanted <;> simp [named, same]

theorem merged_concat (first last : Shared MethodInfo) (others : List (Shared MethodInfo)) :
    merged first (others ++ [last]) = (merged first others).merge last.content.about := by
  unfold merged
  rw [List.foldl_append]
  rfl

theorem bulleted_append (about rest : String) :
    MethodInfo.bulleted (MethodInfo.bulleted about ++ rest) = MethodInfo.bulleted about ++ rest := by
  have starts : MethodInfo.bullet.toList <+: (MethodInfo.bulleted about).toList := by
    unfold MethodInfo.bulleted
    split
    · rename_i already
      exact List.isPrefixOf_iff_prefix.mp already
    · rw [String.toList_append]
      exact List.prefix_append _ _
  have whole : MethodInfo.bullet.toList <+: (MethodInfo.bulleted about ++ rest).toList := by
    rw [String.toList_append]
    exact starts.trans (List.prefix_append _ _)
  generalize MethodInfo.bulleted about ++ rest = text at whole ⊢
  exact if_pos (List.isPrefixOf_iff_prefix.mpr whole)

/-- The descriptions of all methods in order, one item for each. -/
theorem merged_about (first second : Shared MethodInfo) (others : List (Shared MethodInfo)) :
    (merged first (second :: others)).about = MethodInfo.bulleted first.content.about ++
      String.join ((second :: others).map fun method => "\n- " ++ method.content.about) := by
  have continued : ∀ (others : List (Shared MethodInfo)) (info : MethodInfo) (text : String),
      info.about = MethodInfo.bulleted first.content.about ++ text →
      (others.foldl (fun info method => info.merge method.content.about) info).about =
        MethodInfo.bulleted first.content.about ++
          (text ++ String.join (others.map fun method => "\n- " ++ method.content.about)) := by
    intro others
    induction others with
    | nil =>
      intro info text same
      rw [List.map_nil, String.join_nil, String.append_empty]
      exact same
    | cons method rest ih =>
      intro info text same
      rw [List.foldl_cons, List.map_cons, String.join_cons]
      rw [ih (info.merge method.content.about) (text ++ ("\n- " ++ method.content.about))]
      · rw [String.append_assoc]
      · unfold MethodInfo.merge
        rw [same, bulleted_append]
        simp only [String.append_assoc]
        rfl
  unfold merged
  rw [List.foldl_cons, List.map_cons, String.join_cons]
  refine continued others _ _ ?_
  unfold MethodInfo.merge
  simp only [String.append_assoc]
  rfl

theorem merged_keeps (first : Shared MethodInfo) (others : List (Shared MethodInfo)) :
    (merged first others).parameters = first.content.parameters ∧
      (merged first others).returns = first.content.returns ∧
      (merged first others).snippet = first.content.snippet := by
  induction others using List.reverseRecOn with
  | nil => exact ⟨rfl, rfl, rfl⟩
  | append_singleton rest last ih =>
    rw [merged_concat]
    exact ih

theorem Entered.eq_nil {methods : List (Shared MethodInfo)} (entered : Entered made methods none) :
    methods = [] := by
  cases entered
  rfl

theorem Entered.later {methods : List (Shared MethodInfo)} {method : Option (Shared MethodInfo)}
    (entered : Entered made methods method) {more : Methods}
    (new : ∀ known, method = some known → ∀ entry ∈ more, known.identity < entry.2.identity) :
    Entered (made ++ more) methods method := by
  cases entered with
  | nothing => exact .nothing
  | itself => exact .itself
  | merged others content =>
    refine .merged ?_ content
    intro entry member
    rcases List.mem_append.mp member with before | after
    · exact others entry before
    · exact Nat.ne_of_gt (new _ rfl entry after)

theorem Entered.concat {methods : List (Shared MethodInfo)} {known last : Shared MethodInfo}
    (entered : Entered made methods (some known)) {identity : Nat}
    (new : ∀ entry ∈ made, entry.2.identity ≠ identity) :
    Entered made (methods ++ [last]) (some ⟨identity, known.content.merge last.content.about⟩) := by
  cases entered with
  | itself => exact .merged new rfl
  | @merged first second _ others _ content =>
    refine .merged new ?_
    rw [content, ← merged_concat]
    rfl

theorem Cached.insert (cached : Cached made workshop) {name : String} {info : MethodInfo}
    {known : Shared MethodInfo} {fresh : Nat} (later : workshop.fresh < fresh)
    (young : known.identity < fresh)
    (entered : Entered (made ++ [(name, ⟨workshop.fresh, info⟩)])
      (made.named name ++ [⟨workshop.fresh, info⟩]) (some known)) :
    Cached (made ++ [(name, ⟨workshop.fresh, info⟩)])
      { workshop with fresh, methods := Keyed.insert name known workshop.methods } where
  entered := by
    intro wanted
    rw [Keyed.lookup_insert, Methods.named_append, Methods.named_singleton]
    by_cases same : wanted = name
    · subst same
      rw [if_pos rfl, if_pos rfl]
      exact entered
    · rw [if_neg same, if_neg (Ne.symm same), List.append_nil]
      exact (cached.entered wanted).later fun other found entry member =>
        List.mem_singleton.mp member ▸ cached.kept wanted other found
  made := by
    intro entry member
    rcases List.mem_append.mp member with before | last
    · exact Nat.lt_trans (cached.made entry before) later
    · exact List.mem_singleton.mp last ▸ later
  kept := by
    intro wanted other had
    rw [Keyed.lookup_insert] at had
    split at had
    · cases had
      exact young
    · exact Nat.lt_trans (cached.kept wanted other had) later

theorem Cached.enter (cached : Cached made workshop) (name : String) (info : MethodInfo) :
    Cached (made ++ [(name, ⟨workshop.fresh, info⟩)])
      ({ workshop with fresh := workshop.fresh + 1 }.enter name ⟨workshop.fresh, info⟩) := by
  have entered := cached.entered name
  unfold Workshop.enter
  cases found : workshop.methods.lookup name with
  | none =>
    rw [found] at entered
    refine cached.insert (Nat.lt_succ_self _) (Nat.lt_succ_self _) ?_
    rw [entered.eq_nil]
    exact .itself
  | some known =>
    rw [found] at entered
    refine cached.insert (Nat.lt_succ_of_lt (Nat.lt_succ_self _)) (Nat.lt_succ_self _) ?_
    -- The new method takes one number, and the object that is entered takes the next.
    have before : Entered (made ++ [(name, ⟨workshop.fresh, info⟩)]) (made.named name) (some known) :=
      entered.later fun other same entry member =>
        List.mem_singleton.mp member ▸ cached.kept name other (found.trans same)
    refine before.concat ?_
    intro entry member
    rcases List.mem_append.mp member with earlier | last
    · exact Nat.ne_of_lt (Nat.lt_succ_of_lt (cached.made entry earlier))
    · exact List.mem_singleton.mp last ▸ Nat.ne_of_lt (Nat.lt_succ_self _)

theorem Cached.of_later (cached : Cached made workshop) (same : next.methods = workshop.methods)
    (later : workshop.fresh ≤ next.fresh) : Cached made next where
  entered := by
    rw [same]
    exact cached.entered
  made := fun entry member => Nat.lt_of_lt_of_le (cached.made entry member) later
  kept := by
    rw [same]
    exact fun name method found => Nat.lt_of_lt_of_le (cached.kept name method found) later

theorem cached_makeMethods (cached : Cached made workshop) (decls : List (String × MethodDecl)) :
    Cached (made ++ (makeMethods decls workshop).1) (makeMethods decls workshop).2 := by
  induction decls generalizing made workshop with
  | nil =>
    rw [makeMethods, List.append_nil]
    exact cached
  | cons entry rest ih =>
    obtain ⟨name, decl⟩ := entry
    have after := ih (cached.enter name (MethodInfo.ofDecl name decl))
    rw [List.append_assoc, List.singleton_append] at after
    exact after

theorem cached_makeTable (cached : Cached made workshop) (decls : List (String × MethodDecl)) :
    Cached (made ++ (makeTable decls workshop).1.content) (makeTable decls workshop).2 :=
  (cached_makeMethods cached decls).of_later rfl (Nat.le_succ _)

theorem cached_empty : Cached [] empty where
  entered := fun _ => .nothing
  made := nofun
  kept := nofun

end RulesAssist.Workshop
