import RowShape.Text.Blank
import RowShape.Text.Search

/-!
Classes of declared column types. Some names have a class of their own; every
other declaration goes by the letters it contains.
-/

namespace RowShape

inductive DeclaredType where
  | integer | real | numeric | text | blob | boolean | datetime | json
deriving DecidableEq, Repr

namespace DeclaredType

def name : DeclaredType → String
  | integer => "integer"
  | real => "real"
  | numeric => "numeric"
  | text => "text"
  | blob => "blob"
  | boolean => "boolean"
  | datetime => "datetime"
  | json => "json"

/-- The name in snake case, as the class is stored. -/
def storedName : DeclaredType → String
  | datetime => "date_time"
  | t => t.name

/-- The names that belong to a class whatever letters they contain. -/
def namedTypes : List (DeclaredType × List String) :=
  [(boolean, ["bool", "boolean"]),
    (datetime, ["date", "datetime", "timestamp", "timestamptz", "timestamp with time zone",
      "timestamp without time zone"]),
    (json, ["json", "jsonb"]),
    (text, ["uuid", "citext", "string"]),
    (blob, ["bytea", "binary", "varbinary"])]

/-- The class of a declaration by the letters it contains, in lower case. -/
def affinity (base : List Char) : DeclaredType :=
  let has (part : String) : Bool := occursIn part.toList base
  if has "int" then integer
  else if has "char" || has "clob" || has "text" then text
  else if base.isEmpty || has "blob" then blob
  else if has "real" || has "floa" || has "doub" then real
  else numeric

/-- The declaration before the first parenthesis, trimmed. -/
def baseName (declaration : List Char) : List Char :=
  trim ((trim declaration).takeWhile (· != '('))

/-- The class of a declared type such as `VARCHAR(255)`. -/
def ofDeclaration (declaration : String) : DeclaredType :=
  let base := foldCase (baseName declaration.toList)
  match namedTypes.find? fun entry => entry.2.any (·.toList == base) with
  | some entry => entry.1
  | none => affinity base

end DeclaredType

end RowShape
