import RowShape.Coercion
import RowShape.Context
import RowShape.Error
import RowShape.Json.Reader
import RowShape.Template
import RowShape.Text.Search
import RowShape.Time.Reading

/-!
Fields: the leaves of a definition that convert one column. A missing column and
a null one render null, whatever the conversion.
-/

namespace RowShape

abbrev TypeConverter := Json → String → Except Error Json

/-- What happens to the value of a column that is present and not null. -/
inductive Transform where
  | boolean
  | integer
  | number
  | csv (delimiter : String)
  | json
  | datetime
  | format (template : Template)
  | callback (run : Json → Except Error Json)
  | typed (typeCode : String) (converter : TypeConverter)

inductive Field where
  /-- The same output in every context. -/
  | constant (v : Json)
  | keyed (key : String) (transform : Transform)

/-- Splits the text of a value; an array is taken as split already. -/
def splitText (delimiter : List Char) : Json → Json
  | .arr items => .arr items
  | v =>
    if v.plain.isEmpty then .arr []
    else if delimiter.isEmpty then .arr [.str (String.ofList v.plain)]
    else .arr ((splitOn delimiter v.plain).map fun piece => .str (String.ofList piece))

/-- The value that a text describes, null when it is no JSON; other values are themselves. -/
def parseText : Json → Json
  | .str s => (Json.read? s.toList).getD .null
  | v => v

namespace Transform

def defaultDelimiter : String := ","

def name : Transform → String
  | boolean => "boolean"
  | integer => "integer"
  | number => "number"
  | csv _ => "csv"
  | json => "json"
  | datetime => "datetime"
  | format _ => "format"
  | callback _ => "callback"
  | typed _ _ => "typed"

/-- Converts a value; templates read other columns of the context as well. -/
def apply (context : Context) (v : Json) : Transform → Except Error Json
  | boolean => .ok (.bool v.truthy)
  | integer => .ok (.int v.toInt64)
  | number => .ok (.ofDouble v.toDouble)
  | csv delimiter => .ok (splitText delimiter.toList v)
  | json => .ok (parseText v)
  | datetime => .ok (Timestamp.normalize v)
  | format template => .ok (.str (template.render context))
  | callback run => run v
  | typed typeCode converter => converter v typeCode

end Transform

namespace Field

def apply (context : Context) : Field → Except Error Json
  | constant v => .ok v
  | keyed key transform =>
    match context.lookup key with
    | none => .ok .null
    | some .null => .ok .null
    | some v => transform.apply context v

end Field

end RowShape
