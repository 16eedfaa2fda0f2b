/-! File paths as text, and the components by which they are compared.

Two paths are the same if their components are. Repeated and trailing slashes do not count, and
neither does a dot, unless it is the first component of a relative path.
-/

set_option autoImplicit false

namespace RulesAssist.FilePath

inductive Component where
  | root
  | current
  | parent
  | name (value : String)
  deriving DecidableEq, Repr

def pieces : List Char → List (List Char)
  | [] => [[]]
  | '/' :: rest => [] :: pieces rest
  | char :: rest =>
    match pieces rest with
    | [] => [[char]]
    | piece :: others => (char :: piece) :: others

/-- A piece that counts wherever it stands. -/
def component? (piece : List Char) : Option Component :=
  if piece = [] ∨ piece = ['.'] then none
  else if piece = ['.', '.'] then some .parent
  else some (.name (String.ofList piece))

def isAbsolute (path : String) : Bool :=
  path.toList.head? == some '/'

def endsInSlash (path : String) : Bool :=
  path.toList.getLast? == some '/'

def components (path : String) : List Component :=
  let parts := pieces path.toList
  let rest := parts.filterMap component?
  if isAbsolute path then .root :: rest
  else if parts.head? = some ['.'] then .current :: rest
  else rest

/-- A path below a root: an absolute path stands for itself, and no path adds a second slash. -/
def join (root path : String) : String :=
  if isAbsolute path then path
  else if root.isEmpty || endsInSlash root then root ++ path
  else root ++ "/" ++ path

/-- The components of a path below a working directory. Nothing but a leading dot is simplified,
and the empty path has no components. -/
def resolve (directory : List Component) (path : String) : List Component :=
  if path.isEmpty then []
  else if isAbsolute path then components path
  else directory ++ (components path).filter (· ≠ .current)

end RulesAssist.FilePath
