import RowShape.Document.Tag
import RowShape.Error

/-!
Why a document is refused, and where. A fault carries the keys that lead from
the root to the offending value; its message joins them with points.
-/

namespace RowShape.Document

/-- What the value of a key should have been. -/
inductive Wanted where
  | string | sqlText | fieldKind | columnName | contextKey | objectOrArray | nonNegative
deriving DecidableEq, Repr

def Wanted.text : Wanted → String
  | string => "a string"
  | sqlText => "SQL text"
  | fieldKind => "a field kind"
  | columnName => "a column name"
  | contextKey => "a context key"
  | objectOrArray => "an object or an array"
  | nonNegative => "a non-negative integer"

inductive Cause where
  | arrayDefinition
  | mixedKeys (plain : String)
  | unknownTag (key : String)
  | exclusive (first second : Tag)
  | noPrimaryTag
  | strayKey (key : String) (primary : Tag)
  | mistyped (key : String) (wanted : Wanted) (found : Json.Kind)
  | clientMissing (primary : Tag)
  | pagerMissing
  | constantMissing
  | patternMissing
  | keyMissing (kind : String)
  | unknownField (kind : String)
  | arrayParameter
  | crowdedReference
  | plainParameter
deriving DecidableEq, Repr

def Cause.detail : Cause → String
  | arrayDefinition => "arrays are not valid definitions"
  | mixedKeys plain => s!"'{plain}' cannot be mixed with tagged keys"
  | unknownTag key => s!"unknown tag '{key}'"
  | exclusive first second => s!"'{first.text}' and '{second.text}' are mutually exclusive"
  | noPrimaryTag => "object carries no definition tag"
  | strayKey key primary => s!"'{key}' is not valid with '{primary.text}'"
  | mistyped key wanted found => s!"'{key}' must be {wanted.text}, found {found.name}"
  | clientMissing primary => s!"'{primary.text}' requires a database client"
  | pagerMissing => "'$limit' and '$offset' require a pager"
  | constantMissing => "value field requires '$value'"
  | patternMissing => "format field requires '$format'"
  | keyMissing kind => s!"{kind} field has no '$key' and no enclosing key"
  | unknownField kind => s!"unknown field kind '{kind}'"
  | arrayParameter => "parameters cannot be arrays"
  | crowdedReference => "'$ref' cannot carry other keys"
  | plainParameter => "parameter objects must carry '$ref' or '$context'"

structure Fault where
  path : List String
  cause : Cause
deriving DecidableEq, Repr

namespace Fault

/-- A fault of the value at hand. -/
def here {α : Type} (cause : Cause) : Except Fault α := .error ⟨[], cause⟩

/-- Faults of a part, seen from the whole that holds it under `key`. -/
def under {α : Type} (key : String) : Except Fault α → Except Fault α
  | .ok a => .ok a
  | .error f => .error ⟨key :: f.path, f.cause⟩

/-- A key follows a point, except after an empty path. -/
def join (path key : String) : String := if path.isEmpty then key else path ++ "." ++ key

def pathText (f : Fault) : String := f.path.foldl join ""

def message (f : Fault) : String :=
  if f.pathText.isEmpty then f.cause.detail else f.pathText ++ ": " ++ f.cause.detail

def toError (f : Fault) : Error := .configuration f.message

end Fault

end RowShape.Document
