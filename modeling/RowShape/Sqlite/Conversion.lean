import RowShape.Coercion
import RowShape.Field
import RowShape.Sql.DeclaredType

/-!
Values as their declared column types mean them. SQLite stores a boolean as 0 or
1 and a date as text; the declaration says which JSON value is intended.
-/

namespace RowShape.Sqlite

/-- Integers in text stay integers, and other numbers are kept as they are. -/
def toNumeric : Json → Json
  | .num n => .num n
  | .str s =>
    match readInt64? (trim s.toList) with
    | some i => .int i
    | none => .ofDouble (Json.str s).toDouble
  | v => .int v.toInt64

def toText (v : Json) : Json := .str (String.ofList v.plain)

/-- Text that is no JSON stands for null; what is not text needs no decoding. -/
def decode : Json → Json
  | .str s =>
    match Json.read? s.toList with
    | some v => v
    | none => .null
  | v => v

/-- The decoding of the converter and that of a JSON field come to the same. -/
theorem decode_eq_parseText (v : Json) : decode v = parseText v := by
  cases v with
  | str s =>
      simp only [decode, parseText]
      cases Json.read? s.toList with
      | some v => rfl
      | none => rfl
  | null | bool _ | num _ | arr _ | obj _ => rfl

/-- A value that is not null, converted for a class of types. -/
def convertTo (v : Json) : DeclaredType → Json
  | .integer => .int v.toInt64
  | .real => .ofDouble v.toDouble
  | .numeric => toNumeric v
  | .text => toText v
  | .blob => toText v
  | .boolean => .bool v.truthy
  | .datetime => Timestamp.normalize v
  | .json => decode v

/-- Converts a value for a declared type; null stays null. -/
def convert (v : Json) (declaration : String) : Json :=
  match v with
  | .null => .null
  | v => convertTo v (.ofDeclaration declaration)

def converter : TypeConverter := fun v declaration => .ok (convert v declaration)

end RowShape.Sqlite
