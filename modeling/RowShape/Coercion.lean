import RowShape.Json.Basic
import RowShape.Number.Numeral
import RowShape.Text.Blank

/-!
Loose casts of JSON values to truth values, 64-bit integers and binary64
numbers. Databases hand back numbers as text, so texts are read by the number
they start with.
-/

namespace RowShape.Json

/-- Null, false, zero, `""`, `"0"` and empty containers are false. -/
def truthy : Json → Bool
  | .null => false
  | .bool b => b
  | .num (.int i) => i != 0
  | .num (.float f) => !f.isZero
  | .str s => !(s == "" || s == "0")
  | .arr items => !items.isEmpty
  | .obj members => !members.isEmpty

/-- Fractions are dropped, values beyond 64 bits clamped, and texts without a number are 0. -/
def toInt64 : Json → Int
  | .null => 0
  | .bool b => if b then 1 else 0
  | .num n => n.toInt64?.getD n.toDouble.toInt64
  | .str s =>
    let text := trim s.toList
    (readInt64? text).getD (leadingNumber text).toInt64
  | .arr items => if items.isEmpty then 0 else 1
  | .obj members => if members.isEmpty then 0 else 1

def toDouble : Json → Double
  | .num n => n.toDouble
  | .str s => leadingNumber (trim s.toList)
  | v => .ofInt v.toInt64

end RowShape.Json
