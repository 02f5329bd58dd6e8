import RowShape.Field
import RowShape.Parameter

/-!
Definitions: what the output looks like and where its data comes from. A
definition is a tree of columns, constants, fields and named children, in which
providers fetch rows and have each of them rendered by a definition of its own.
-/

namespace RowShape

inductive Source where
  | query (sql : String)
  /-- The same data for all parameters: rows, one row or a scalar. -/
  | fixed (v : Json)
  | callable (run : List Bound → Except Error Json)

def Source.label : Source → String
  | query sql => sql
  | fixed _ => "<static>"
  | callable _ => "<callable>"

/-- The name under which a row is kept in a keyed collection. -/
inductive RowKey where
  | column (name : String)
  | custom (run : Row → Except Error String)

/-- The key of a row: a column must hold a scalar, whose text is the key. -/
def RowKey.of (row : Row) : RowKey → Except Error String
  | custom run => run row
  | column name =>
    match row.get? name with
    | none => .error (.unknownKey name)
    | some .null => .error (.shape (.keyNotScalar name .null))
    | some (.arr _) => .error (.shape (.keyNotScalar name .array))
    | some (.obj _) => .error (.shape (.keyNotScalar name .object))
    | some v => .ok (String.ofList v.plain)

/-- A collection whose rows are all rendered. -/
inductive Collected where
  | list (items : List Json)
  | keyed (members : Row)

namespace Collected

def size : Collected → Nat
  | list items => items.length
  | keyed members => members.length

def isEmpty (c : Collected) : Bool := c.size == 0

def retain (keep : Json → Bool) : Collected → Collected
  | list items => list (items.filter keep)
  | keyed members => keyed (members.filter fun m => keep m.2)

def toJson : Collected → Json
  | list items => .arr items
  | keyed members => .obj members

end Collected

/-- A pass over a whole collection. -/
abbrev Filter := Collected → Except Error Collected

def Filter.retain (keep : Json → Bool) : Filter := fun c => .ok (c.retain keep)

/-- What becomes of fetched data: one row, every row, or a collection that may be keyed
and filtered. A value provider passes bare scalars through. -/
inductive Provider where
  | value
  | entity
  | column
  | collection (key : Option RowKey) (filter : Option Filter)

def Provider.kind : Provider → ProviderKind
  | value => .value
  | entity => .entity
  | column => .column
  | collection _ _ => .collection

inductive Definition where
  /-- A string names a column, as long as there is a row; every other value is a constant. -/
  | scalar (v : Json)
  | field (f : Field)
  | provider (shape : Provider) (source : Source) (params : List Parameter)
      (each : Definition)
  | map (entries : List (String × Definition))
  | row

def Definition.kind : Definition → String
  | scalar _ => "scalar"
  | field _ => "field"
  | provider _ _ _ _ => "provider"
  | map _ => "map"
  | row => "row"

end RowShape
