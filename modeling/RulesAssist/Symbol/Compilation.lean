import RulesAssist.Keyed
import RulesAssist.Symbol.TypeSymbol

/-! Compiling the declared types.

First the methods declared anywhere inside a basic type are made, so that they are there before any
type inherits them. Then each root type is compiled depth first. A type that names a basic type takes
its methods as they are and its fields as a start for its own; every other type has the methods that
it declares.
-/

set_option autoImplicit false

namespace RulesAssist

/-- Where a declaration stands: its path, and whether it is part of a basic type. -/
structure Site where
  path : String
  inBasicType : Bool
  deriving DecidableEq, Repr

def Site.child (site : Site) (key : String) : Site :=
  { site with path := dotted site.path key }

inductive Omission where
  | reference (path name : String)
  | methods (path : String)
  deriving DecidableEq, Repr

/-- What a compilation has made so far.

`methods` has one entry for each method name, with the descriptions of all methods of that name.
`prepared` holds the method tables made in advance, by the path of their type. `basicTypes` has the
basic types compiled so far, last first. -/
structure Workshop where
  fresh : Nat
  methods : MethodTable
  prepared : List (String × Shared MethodTable)
  basicTypes : List (String × TypeSymbol)
  omissions : List Omission

namespace Workshop

def empty : Workshop :=
  { fresh := 0, methods := [], prepared := [], basicTypes := [], omissions := [] }

/-- Enter a method under its name. The first one is entered itself; each later one makes a new object
that adds its description. -/
def enter (workshop : Workshop) (name : String) (method : Shared MethodInfo) : Workshop :=
  match workshop.methods.lookup name with
  | none => { workshop with methods := Keyed.insert name method workshop.methods }
  | some entered =>
    { workshop with
      fresh := workshop.fresh + 1
      methods := Keyed.insert name ⟨workshop.fresh, entered.content.merge method.content.about⟩
        workshop.methods }

def makeMethods : List (String × MethodDecl) → Workshop → MethodTable × Workshop
  | [], workshop => ([], workshop)
  | (name, decl) :: rest, workshop =>
    let method : Shared MethodInfo := ⟨workshop.fresh, MethodInfo.ofDecl name decl⟩
    let (methods, workshop) :=
      makeMethods rest ({ workshop with fresh := workshop.fresh + 1 }.enter name method)
    ((name, method) :: methods, workshop)

def makeTable (decls : List (String × MethodDecl)) (workshop : Workshop) :
    Shared MethodTable × Workshop :=
  let (methods, workshop) := makeMethods decls workshop
  (⟨workshop.fresh, methods⟩, { workshop with fresh := workshop.fresh + 1 })

/-- Make the table of a type in advance, if the type declares methods and inherits none. -/
def prepareOwn (path : String) (methods : Option (List (String × MethodDecl)))
    (basic : Option String) (workshop : Workshop) : Workshop :=
  match basic, methods with
  | none, some decls =>
    let (table, workshop) := makeTable decls workshop
    { workshop with prepared := Keyed.insert path table workshop.prepared }
  | _, _ => workshop

mutual

def prepare (path : String) : TypeDecl → Workshop → Workshop
  | ⟨_, methods, none, basic⟩, workshop => prepareOwn path methods basic workshop
  | ⟨_, methods, some fields, basic⟩, workshop =>
    prepareFields path fields (prepareOwn path methods basic workshop)

def prepareFields (path : String) : List (String × TypeDecl) → Workshop → Workshop
  | [], workshop => workshop
  | (key, field) :: rest, workshop =>
    prepareFields path rest (prepare (dotted path key) field workshop)

end

abbrev Resolve := String → Workshop → Option TypeSymbol × Workshop

def inherit (resolve : Resolve) (site : Site) :
    Option String → Workshop → Option TypeSymbol × Workshop
  | none, workshop => (none, workshop)
  | some name, workshop =>
    match resolve name workshop with
    | (some symbol, workshop) => (some symbol, workshop)
    | (none, workshop) =>
      (none, { workshop with omissions := workshop.omissions ++ [.reference site.path name] })

/-- The methods of a type: those of its basic type, or those that it declares. Inside a basic type
the table was made in advance, under its path. -/
def takeMethods (site : Site) (inherited : Option TypeSymbol)
    (methods : Option (List (String × MethodDecl))) (workshop : Workshop) :
    Option (Shared MethodTable) × Workshop :=
  match inherited, methods with
  | some basic, none => (basic.methods, workshop)
  | some basic, some _ =>
    (basic.methods, { workshop with omissions := workshop.omissions ++ [.methods site.path] })
  | none, none => (none, workshop)
  | none, some decls =>
    match if site.inBasicType then workshop.prepared.lookup site.path else none with
    | some table => (some table, workshop)
    | none =>
      let (table, workshop) := makeTable decls workshop
      (some table, workshop)

def makeType (about : String) (methods : Option (Shared MethodTable))
    (fields : Option (List (String × TypeSymbol))) (basic : Option String) (workshop : Workshop) :
    TypeSymbol × Workshop :=
  (⟨workshop.fresh, about, methods, fields, basic⟩, { workshop with fresh := workshop.fresh + 1 })

mutual

def buildType (resolve : Resolve) (site : Site) : TypeDecl → Workshop → TypeSymbol × Workshop
  | ⟨about, methods, none, basic⟩, workshop =>
    let (inherited, workshop) := inherit resolve site basic workshop
    let (table, workshop) := takeMethods site inherited methods workshop
    makeType about table (inherited.bind (·.fields)) basic workshop
  | ⟨about, methods, some own, basic⟩, workshop =>
    let (inherited, workshop) := inherit resolve site basic workshop
    let (table, workshop) := takeMethods site inherited methods workshop
    let (fields, workshop) :=
      buildFields resolve site own ((inherited.bind (·.fields)).getD []) workshop
    makeType about table (some fields) basic workshop

/-- Compile fields in order over the given ones. A field of the same key is replaced in its place. -/
def buildFields (resolve : Resolve) (site : Site) :
    List (String × TypeDecl) → List (String × TypeSymbol) → Workshop →
      List (String × TypeSymbol) × Workshop
  | [], fields, workshop => (fields, workshop)
  | (key, field) :: rest, fields, workshop =>
    let (symbol, workshop) := buildType resolve (site.child key) field workshop
    buildFields resolve site rest (Keyed.insert key symbol fields) workshop

end

/-- Compile a basic type once. While it is being compiled it cannot be had, and at most as many can
be under way as there are basic types. -/
def obtainBasic (basicTypes : List (String × TypeDecl)) : Nat → List String → Resolve
  | depth, underWay, name, workshop =>
    match workshop.basicTypes.lookup name with
    | some done => (some done, workshop)
    | none =>
      match depth, basicTypes.lookup name with
      | depth + 1, some decl =>
        if name ∈ underWay then (none, workshop)
        else
          -- What is compiled inside this type sees it as under way.
          let (symbol, workshop) :=
            buildType (obtainBasic basicTypes depth (name :: underWay)) ⟨name, true⟩ decl workshop
          (some symbol, { workshop with basicTypes := (name, symbol) :: workshop.basicTypes })
      | _, _ => (none, workshop)

def prepareAll : List (String × TypeDecl) → Workshop → Workshop
  | [], workshop => workshop
  | (name, decl) :: rest, workshop => prepareAll rest (prepare name decl workshop)

def buildRoots (resolve : Resolve) :
    List (String × TypeDecl) → Workshop → List (String × TypeSymbol) × Workshop
  | [], workshop => ([], workshop)
  | (name, decl) :: rest, workshop =>
    let (symbol, workshop) := buildType resolve ⟨name, false⟩ decl workshop
    let (symbols, workshop) := buildRoots resolve rest workshop
    ((name, symbol) :: symbols, workshop)

def run (grammar : Grammar) : List (String × TypeSymbol) × Workshop :=
  buildRoots (obtainBasic grammar.basicTypes grammar.basicTypes.length [])
    grammar.types (prepareAll grammar.basicTypes empty)

end Workshop

end RulesAssist
