import RulesAssist.FilePath
import RulesAssist.Keyed

/-! Files and directories in memory, read by path. -/

set_option autoImplicit false

namespace RulesAssist

open FilePath

/-- What a file holds: its text, or none if its bytes are not text. -/
abbrev FileContent := Option String

structure FileTree where
  directories : List (List String)
  files : List (List String × FileContent)

namespace FileTree

def empty : FileTree := { directories := [[]], files := [] }

/-- Walk the components from a directory. Every component on the way has to be a directory. -/
def walk? (tree : FileTree) : List String → List Component → Option (List String)
  | place, [] => some place
  | place, component :: rest =>
    if place ∈ tree.directories then
      match component with
      | .root => tree.walk? [] rest
      | .current => tree.walk? place rest
      | .parent => tree.walk? place.dropLast rest
      | .name value => tree.walk? (place ++ [value]) rest
    else none

/-- The text of a file. A missing file, a directory, a path through a file and a path that ends in
a slash have none. -/
def read (tree : FileTree) (path : List Component) (asDirectory : Bool) : Option String := do
  let place ← tree.walk? [] path
  if asDirectory || path.isEmpty then none else (tree.files.lookup place).join

def placeOf (path : List Component) : List String :=
  path.foldl (fun place component =>
    match component with
    | .root => []
    | .current => place
    | .parent => place.dropLast
    | .name value => place ++ [value]) []

def write (tree : FileTree) (path : List Component) (content : FileContent) : FileTree :=
  let onTheWay := (List.range path.length).map fun count => placeOf (path.take count)
  { directories := tree.directories ++ onTheWay.filter (· ∉ tree.directories)
    files := Keyed.insert (placeOf path) content tree.files }

/-- Remove a file, if it is there; a path that ends in a slash names no file. -/
def remove? (tree : FileTree) (path : List Component) (asDirectory : Bool) : Option FileTree := do
  let place ← tree.walk? [] path
  let _ ← tree.files.lookup place
  if asDirectory then none else some { tree with files := Keyed.erase place tree.files }

end FileTree

end RulesAssist
