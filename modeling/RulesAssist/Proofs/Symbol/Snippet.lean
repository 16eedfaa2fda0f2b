import RulesAssist.Proofs.Symbol.Everywhere
import RulesAssist.Proofs.Symbol.Survey
import RulesAssist.Proofs.Text.Pattern

/-! Snippets, read back and found.

A snippet closes each placeholder with a brace, so cut at its braces it falls into one piece for each
parameter and the end of the call. In a piece the label starts behind the first colon, since the number
before it has none.

Every method is made with the snippet of its own name, merging keeps the snippet, and types take over whole
tables. So a compiled method is called by the name under which it is found, wherever it is found.
-/

set_option autoImplicit false

namespace RulesAssist

/-- The name and the labels of a call, as they are found in its text. -/
def readCall (text : List Char) : List Char × List (List Char) :=
  (text.takeWhile (· != '('),
    (((text.dropWhile (· != '(')).tail.splitOn '\x7d').dropLast.map fun piece =>
      (piece.dropWhile (· != ':')).tail))

/-- A placeholder without the brace that closes it. -/
def opened (index : Nat) (label : String) : List Char :=
  "$\x7b".toList ++ (toString index).toList ++ ':' :: label.toList

/-- What stands before the braces, with a lead before the first placeholder. -/
def pieces (lead : List Char) (index : Nat) : List String → List (List Char)
  | [] => []
  | label :: rest => (lead ++ opened index label) :: pieces ", ".toList (index + 1) rest

def callEnd : List Char :=
  ")$0".toList

theorem not_mem_toDigits (index : Nat) {char : Char} (other : char.isDigit = false) :
    char ∉ Nat.toDigits 10 index := by
  intro member
  rw [Nat.isDigit_of_mem_toDigits (by decide) (by decide) member] at other
  cases other

theorem brace_not_mem_opened {label : String} (closed : '\x7d' ∉ label.toList) (index : Nat) :
    '\x7d' ∉ opened index label := by
  have number := not_mem_toDigits index (by decide : Char.isDigit '\x7d' = false)
  simp [opened, number, closed]

theorem label_of_opened {lead : List Char} (bare : ':' ∉ lead) (index : Nat) (label : String) :
    ((lead ++ opened index label).dropWhile (· != ':')).tail = label.toList := by
  have number := not_mem_toDigits index (by decide : Char.isDigit ':' = false)
  have split : lead ++ opened index label =
      (lead ++ "$\x7b".toList ++ (toString index).toList) ++ ':' :: label.toList := by
    simp [opened]
  rw [split, Text.dropWhile_stopped ?_ (by decide), List.tail_cons]
  intro char member
  rw [bne_iff_ne]
  rintro rfl
  simp [bare, number] at member

variable {lead : List Char}

theorem brace_not_mem_pieces (plain : '\x7d' ∉ lead) (index : Nat) {labels : List String}
    (closed : ∀ label ∈ labels, '\x7d' ∉ label.toList) :
    ∀ piece ∈ pieces lead index labels, '\x7d' ∉ piece := by
  induction labels generalizing lead index with
  | nil => simp [pieces]
  | cons label rest ih =>
    simp only [pieces, List.forall_mem_cons, List.mem_append, not_or] at closed ⊢
    exact ⟨⟨plain, brace_not_mem_opened closed.1 index⟩, ih (by decide) (index + 1) closed.2⟩

theorem labels_of_pieces (bare : ':' ∉ lead) (index : Nat) (labels : List String) :
    ((pieces lead index labels).map fun piece => (piece.dropWhile (· != ':')).tail) =
      labels.map String.toList := by
  induction labels generalizing lead index with
  | nil => rfl
  | cons label rest ih =>
    rw [pieces, List.map_cons, List.map_cons, label_of_opened bare, ih (by decide)]

theorem intercalate_pieces (lead : List Char) (index : Nat) {labels : List String} (nonempty : labels ≠ []) :
    ['\x7d'].intercalate (pieces lead index labels ++ [callEnd]) =
      lead ++ (placeholders index labels).toList ++ callEnd := by
  induction labels generalizing lead index with
  | nil => exact absurd rfl nonempty
  | cons label rest ih =>
    cases rest with
    | nil => simp [pieces, placeholders, placeholder, opened, List.intercalate_cons_cons]
    | cons next later =>
      have onward := ih ", ".toList (index + 1) (List.cons_ne_nil next later)
      have split : placeholders index (label :: next :: later) =
          placeholder index label ++ ", " ++ placeholders (index + 1) (next :: later) := rfl
      rw [pieces, List.cons_append, List.intercalate_cons_of_ne_nil (by simp), onward, split]
      simp [opened, placeholder]

theorem closing_pieces (labels : List String) :
    ['\x7d'].intercalate (pieces [] 1 labels ++ [callEnd]) = (placeholders 1 labels).toList ++ callEnd := by
  cases labels with
  | nil => simp [pieces, placeholders]
  | cons label rest => exact intercalate_pieces [] 1 (List.cons_ne_nil label rest)

theorem readCall_snippetFor {name : String} {parameters : List String} (named : '(' ∉ name.toList)
    (closed : ∀ label ∈ parameters, '\x7d' ∉ label.toList) :
    readCall (snippetFor name parameters).toList = (name.toList, parameters.map String.toList) := by
  have text : (snippetFor name parameters).toList =
      name.toList ++ '(' :: ((placeholders 1 parameters).toList ++ callEnd) := by
    simp [snippetFor, callEnd]
  have before : ∀ char ∈ name.toList, (char != '(') = true := by
    intro char member
    rw [bne_iff_ne]
    rintro rfl
    exact named member
  have cut : ((placeholders 1 parameters).toList ++ callEnd).splitOn '\x7d' =
      pieces [] 1 parameters ++ [callEnd] := by
    rw [← closing_pieces]
    apply List.splitOn_intercalate
    · intro piece member
      rcases List.mem_append.mp member with labelled | last
      · exact brace_not_mem_pieces (by decide) 1 closed piece labelled
      · rw [List.mem_singleton.mp last]
        decide
    · simp
  rw [readCall, text, Text.takeWhile_stopped before (by decide), Text.dropWhile_stopped before (by decide),
    List.tail_cons, cut, List.dropLast_concat, labels_of_pieces (by decide)]

/-- The snippet calls a method by this name if its parameters are declared, and else there is none. -/
def MethodInfo.CalledBy (name : String) (info : MethodInfo) : Prop :=
  info.snippet = info.parameters.map (snippetFor name)

def MethodTable.Callable (table : MethodTable) : Prop :=
  ∀ entry ∈ table, entry.2.content.CalledBy entry.1

def TypeSymbol.Callable (symbol : TypeSymbol) : Prop :=
  ∀ table, symbol.methods = some table → MethodTable.Callable table.content

structure Workshop.Callable (workshop : Workshop) : Prop where
  methods : MethodTable.Callable workshop.methods
  prepared : ∀ entry ∈ workshop.prepared, MethodTable.Callable entry.2.content

theorem MethodTable.Callable.insert {table : MethodTable} (callable : MethodTable.Callable table)
    {name : String} {method : Shared MethodInfo} (called : method.content.CalledBy name) :
    MethodTable.Callable (Keyed.insert name method table) := by
  intro entry member
  rcases Keyed.mem_insert member with rfl | before
  · exact called
  · exact callable entry before

namespace Workshop

variable {workshop : Workshop}

theorem callable_empty : Callable empty :=
  ⟨nofun, nofun⟩

theorem Callable.enter (callable : workshop.Callable) {name : String} {method : Shared MethodInfo}
    (called : method.content.CalledBy name) : (workshop.enter name method).Callable := by
  unfold Workshop.enter
  split
  · exact ⟨callable.methods.insert called, callable.prepared⟩
  · -- Merging adds to the description and keeps the parameters and the snippet.
    rename_i entered found
    have before : entered.content.CalledBy name := callable.methods _ (Keyed.mem_of_lookup found)
    exact ⟨callable.methods.insert before, callable.prepared⟩

theorem callable_makeMethods (callable : workshop.Callable) (decls : List (String × MethodDecl)) :
    MethodTable.Callable (makeMethods decls workshop).1 ∧ (makeMethods decls workshop).2.Callable := by
  induction decls generalizing workshop with
  | nil => exact ⟨nofun, callable⟩
  | cons entry rest ih =>
    obtain ⟨name, decl⟩ := entry
    have called : (MethodInfo.ofDecl name decl).CalledBy name := rfl
    have fresh : Callable { workshop with fresh := workshop.fresh + 1 } :=
      ⟨callable.methods, callable.prepared⟩
    have entered : Callable ({ workshop with fresh := workshop.fresh + 1 }.enter name
        ⟨workshop.fresh, MethodInfo.ofDecl name decl⟩) := fresh.enter called
    obtain ⟨table, next⟩ := ih entered
    exact ⟨List.forall_mem_cons.mpr ⟨called, table⟩, next⟩

theorem callable_makeTable (callable : workshop.Callable) (decls : List (String × MethodDecl)) :
    MethodTable.Callable (makeTable decls workshop).1.content ∧
      (makeTable decls workshop).2.Callable := by
  obtain ⟨table, next⟩ := callable_makeMethods callable decls
  exact ⟨table, next.methods, next.prepared⟩

theorem callable_store (callable : workshop.Callable) (entry : Authored) :
    (workshop.store entry).Callable := by
  obtain ⟨table, next⟩ := callable_makeTable callable entry.2
  refine ⟨next.methods, fun other member => ?_⟩
  rcases Keyed.mem_insert member with rfl | before
  · exact table
  · exact next.prepared other before

theorem Equips.callable {site : Site} {inherited : Option TypeSymbol}
    {methods : Option (List (String × MethodDecl))} {taken : Option (Shared MethodTable) × Workshop}
    (equips : Equips site workshop inherited methods taken) (callable : workshop.Callable)
    (basic : ∀ type, inherited = some type → type.Callable) :
    taken.2.Callable ∧ ∀ table, taken.1 = some table → MethodTable.Callable table.content := by
  cases equips with
  | shared => exact ⟨callable, basic _ rfl⟩
  | replaced => exact ⟨⟨callable.methods, callable.prepared⟩, basic _ rfl⟩
  | bare => exact ⟨callable, nofun⟩
  | stocked _ found =>
    refine ⟨callable, ?_⟩
    rintro _ ⟨⟩
    exact callable.prepared _ (Keyed.mem_of_lookup found)
  | made _ =>
    obtain ⟨table, next⟩ := callable_makeTable callable _
    refine ⟨next, ?_⟩
    rintro _ ⟨⟩
    exact table

def calling (grammar : Grammar) (tale : List Course.Deed) : Survey grammar tale Unit where
  stands _ _ := True
  sound now := now.workshop.Callable
  later _ _ _ := True
  begun _ _ _ inherited table :=
    (∀ methods, table = some methods → MethodTable.Callable methods.content) ∧
      ∀ basic, inherited = some basic → basic.Everywhere TypeSymbol.Callable
  right _ _ _ symbol := symbol.Everywhere TypeSymbol.Callable

theorem calling_lawful (grammar : Grammar) (tale : List Course.Deed) : (calling grammar tale).Lawful where
  passes := Grammar.passes_trivially
  refl _ := trivial
  trans _ _ := trivial
  begun_later _ begun := begun
  right_later _ right := right
  lose _ _ _ _ good _ _ _ := ⟨(), trivial, good.sound.methods, good.sound.prepared⟩
  equip := by
    intro now place decl inherited taken good _ base equips
    have basic : ∀ type, inherited = some type → type.Everywhere TypeSymbol.Callable := by
      rintro type rfl
      obtain ⟨_, _, _, _, right⟩ := good.inherited base
      exact right
    obtain ⟨next, table⟩ := equips.callable good.sound fun type had =>
      (TypeSymbol.everywhere_iff.mp (basic type had)).1
    exact ⟨(), trivial, next, table, basic⟩
  finish := by
    intro now place decl inherited table fields good _ begun composes _ _
    exact ⟨(), trivial, ⟨good.sound.methods, good.sound.prepared⟩,
      TypeSymbol.everywhere_of_composes begun.1 begun.2 composes⟩
  keep _ _ _ _ good _ _ _ := ⟨(), trivial, good.sound.methods, good.sound.prepared⟩

theorem callable_run (grammar : Grammar) : (run grammar).2.Callable ∧
    ∀ root ∈ (run grammar).1, root.2.Everywhere TypeSymbol.Callable := by
  obtain ⟨deeds, compiles⟩ := Course.exists_run grammar
  have start : Callable (prepareAll grammar.basicTypes empty) :=
    prepareAll_rule callable_empty (fun _ entry callable => callable_store callable entry) grammar
  obtain ⟨_, _, last, each⟩ := (calling_lawful grammar deeds).run compiles () start
  refine ⟨last.sound, fun root member => ?_⟩
  obtain ⟨_, _, right⟩ := each.exists_of_mem member
  exact right

end Workshop

namespace SymbolTable

/-- A type that a name stands for, or a field of such a type, however deep. -/
inductive Contains (table : SymbolTable) : TypeSymbol → Prop where
  | named {name : String} {symbol : TypeSymbol} : table.type? name = some symbol → Contains table symbol
  | field {symbol inner : TypeSymbol} {fields : List (String × TypeSymbol)} {key : String} :
      Contains table symbol → symbol.fields = some fields → (key, inner) ∈ fields → Contains table inner

/-- A method is offered under the names for which it is entered, and under those that it has in types. -/
inductive Offers (table : SymbolTable) : String → Shared MethodInfo → Prop where
  | entered {name : String} {method : Shared MethodInfo} :
      (name, method) ∈ table.methods → Offers table name method
  | member {symbol : TypeSymbol} {methods : Shared MethodTable} {name : String}
      {method : Shared MethodInfo} : Contains table symbol → symbol.methods = some methods →
      (name, method) ∈ methods.content → Offers table name method

variable {grammar : Grammar}

theorem Contains.callable {symbol : TypeSymbol} (contains : (compile grammar).Contains symbol) :
    symbol.Everywhere TypeSymbol.Callable := by
  induction contains with
  | named found =>
    refine holds_of_type? (fun root member => ?_) found
    exact TypeSymbol.Everywhere.everywhere root.2 ((Workshop.callable_run grammar).2 root member)
  | field _ own member ih => exact (TypeSymbol.everywhere_iff.mp ih).2 _ own _ member

theorem Offers.calledBy {name : String} {method : Shared MethodInfo}
    (offers : (compile grammar).Offers name method) : method.content.CalledBy name := by
  cases offers with
  | entered member => exact (Workshop.callable_run grammar).1.methods _ member
  | member contains own listed => exact (TypeSymbol.everywhere_iff.mp contains.callable).1 _ own _ listed

end SymbolTable

/-- The name and the labels of a call can be read from its snippet, so calls with the same snippet are the
same. In a compiled grammar every method has the snippet that calls it by the name under which it is offered,
by itself, merged with others or inherited, if its parameters are declared, and else it has none. -/
theorem snippet_calls_back :
    (∀ name parameters, '(' ∉ name.toList → (∀ label ∈ parameters, '\x7d' ∉ label.toList) →
      readCall (snippetFor name parameters).toList = (name.toList, parameters.map String.toList)) ∧
    (∀ name other parameters others, '(' ∉ name.toList → '(' ∉ other.toList →
      (∀ label ∈ parameters, '\x7d' ∉ label.toList) → (∀ label ∈ others, '\x7d' ∉ label.toList) →
      snippetFor name parameters = snippetFor other others → name = other ∧ parameters = others) ∧
    ∀ grammar name method, (SymbolTable.compile grammar).Offers name method →
      method.content.snippet = method.content.parameters.map (snippetFor name) := by
  refine ⟨fun _ _ => readCall_snippetFor, ?_, fun _ _ _ => SymbolTable.Offers.calledBy⟩
  intro name other parameters others named also closed too same
  have read := readCall_snippetFor named closed
  rw [same, readCall_snippetFor also too] at read
  obtain ⟨names, labels⟩ := Prod.mk.inj read
  exact ⟨(String.toList_injective names).symm,
    (List.map_injective_iff.mpr (fun _ _ => String.toList_injective) labels).symm⟩

/-- A method that a type inherits, and another one of the same name. -/
def borrowing : Grammar where
  accessModifiers := []
  basicTypes := [("list", ⟨"", some [("get", ⟨"an item", some ["index"], none⟩)], none, none⟩)]
  types :=
    [("words", ⟨"", none, none, some "list"⟩),
      ("book", ⟨"", some [("get", ⟨"a page", none, none⟩)], none, none⟩)]

theorem snippet_calls_back_borrowing :
    '(' ∉ "get".toList ∧ (∀ label ∈ ["a, $\x7b2:b"], '\x7d' ∉ label.toList) ∧
      (∀ label ∈ ["a", "b"], '\x7d' ∉ label.toList) ∧
      readCall (snippetFor "get" ["a, $\x7b2:b"]).toList =
        ("get".toList, ["a, $\x7b2:b"].map String.toList) ∧
      snippetFor "get" ["a, $\x7b2:b"] ≠ snippetFor "get" ["a", "b"] ∧
      (∃ merged, (SymbolTable.compile borrowing).Offers "get" merged ∧
        merged.content.about = "- an item\n- a page" ∧
        merged.content.snippet = some "get($\x7b1:index\x7d)$0") ∧
      ∃ symbol table inherited, (SymbolTable.compile borrowing).type? "words" = some symbol ∧
        symbol.methods = some table ∧ ("get", inherited) ∈ table.content ∧
        (SymbolTable.compile borrowing).Offers "get" inherited ∧
        inherited.content.snippet = some "get($\x7b1:index\x7d)$0" := by
  have named : '(' ∉ "get".toList := by decide
  have closed : ∀ label ∈ ["a, $\x7b2:b"], '\x7d' ∉ label.toList := by decide
  have plain : ∀ label ∈ ["a", "b"], '\x7d' ∉ label.toList := by decide
  have first : ((SymbolTable.compile borrowing).methods.lookup "get").map
      (fun method => (method.content.about, method.content.parameters)) =
        some ("- an item\n- a page", some ["index"]) := by
    decide +kernel
  have second : ((SymbolTable.compile borrowing).type? "words").bind (fun symbol =>
      symbol.methods.bind fun table => (table.content.lookup "get").map (·.content.parameters)) =
        some (some ["index"]) := by
    rw [SymbolTable.type?_compile]
    decide +kernel
  obtain ⟨merged, entered, known⟩ := Option.map_eq_some_iff.mp first
  obtain ⟨described, declared⟩ := Prod.mk.inj known
  obtain ⟨symbol, found, owned⟩ := Option.bind_eq_some_iff.mp second
  obtain ⟨table, had, listed⟩ := Option.bind_eq_some_iff.mp owned
  obtain ⟨inherited, member, also⟩ := Option.map_eq_some_iff.mp listed
  have offered : (SymbolTable.compile borrowing).Offers "get" merged :=
    .entered (Keyed.mem_of_lookup entered)
  have lent : (SymbolTable.compile borrowing).Offers "get" inherited :=
    .member (.named found) had (Keyed.mem_of_lookup member)
  have call : snippetFor "get" ["index"] = "get($\x7b1:index\x7d)$0" := by decide
  obtain ⟨reads, separates, compiled⟩ := snippet_calls_back
  refine ⟨named, closed, plain, reads "get" _ named closed, ?_, ⟨merged, offered, described, ?_⟩,
    symbol, table, inherited, found, had, Keyed.mem_of_lookup member, lent, ?_⟩
  · intro same
    exact absurd (separates "get" "get" _ _ named named closed plain same).2 (by decide)
  · rw [compiled _ _ _ offered, declared, Option.map_some, call]
  · rw [compiled _ _ _ lent, also, Option.map_some, call]

/-- A brace in a label may close a placeholder, and what follows may open another one. -/
example : snippetFor "get" ["a\x7d, $\x7b2:b"] = snippetFor "get" ["a", "b"] := by
  decide

end RulesAssist
