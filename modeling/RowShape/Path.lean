import RowShape.Text.Search

/-!
Paths as text. Parts are separated by slashes, and a path that starts with one
is absolute.
-/

namespace RowShape.Path

def isAbsolute (path : String) : Bool := path.toList.head? == some '/'

/-- An absolute right side replaces the left one. Otherwise a slash goes between them,
unless the left side is empty or ends in one. -/
def join (base path : String) : String :=
  if isAbsolute path || base.isEmpty then path
  else if base.toList.getLast? == some '/' then base ++ path
  else base ++ "/" ++ path

/-- A reversed path without the slashes and single points at its end. -/
def trimReversed : List Char → List Char
  | '/' :: rest => if rest.isEmpty then ['/'] else trimReversed rest
  | '.' :: '/' :: rest => trimReversed ('/' :: rest)
  | s => s

/-- The path without its last part; the root and the empty path have none. -/
def parent? (path : String) : Option String :=
  match trimReversed path.toList.reverse with
  | [] => none
  | ['/'] => none
  | s => some (String.ofList (trimReversed (s.dropWhile (· != '/'))).reverse)

/-- A path and the paths above it, at most `fuel` of them. -/
def climb : Nat → String → List String
  | 0, _ => []
  | fuel + 1, path =>
    path :: match parent? path with
      | some p => climb fuel p
      | none => []

def ancestors (path : String) : List String := climb (path.length + 1) path

def parts (path : String) : List String :=
  (splitOn ['/'] path.toList).map String.ofList

end RowShape.Path
