import RowShape.Json.Writer
import RowShape.Text.Utf8

/-!
The values that SQLite stores, how JSON values are bound as cells, and how cells
are read back.
-/

namespace RowShape.Sqlite

inductive Cell where
  | null
  | integer (i : Int)
  | real (x : Double)
  | text (s : String)
  | blob (bytes : List Nat)
deriving DecidableEq, Repr

namespace Cell

def className : Cell → String
  | null => "null"
  | integer _ => "integer"
  | real _ => "real"
  | text _ => "text"
  | blob _ => "blob"

def isNull : Cell → Bool
  | null => true
  | _ => false

/-- Booleans are bound as 0 and 1, integers beyond signed 64 bits as reals, and nested
values as their JSON text. -/
def ofJson : Json → Cell
  | .null => null
  | .bool b => integer (if b then 1 else 0)
  | .num n =>
    match n.toInt64? with
    | some i => integer i
    | none => real n.toDouble
  | .str s => text s
  | v => text v.text

/-- Blobs are read as text, and reals that JSON lacks as null. -/
def toJson : Cell → Json
  | null => .null
  | integer i => .int i
  | real x => .ofDouble x
  | text s => .str s
  | blob bytes => .str (String.ofList (Utf8.lossy bytes))

/-- Reals are shown without an exponent and without `.0`. -/
def realLayout : FloatLayout := ⟨none, false, .up⟩

def showReal : Double → List Char
  | .finite f => realLayout.finite f
  | .infinite negative => (if negative then "-inf" else "inf").toList
  | .nan => "NaN".toList

def display : Cell → List Char
  | null => []
  | integer i => intText i
  | real x => showReal x
  | text s => s.toList
  | blob bytes => Utf8.lossy bytes

end Cell

end RowShape.Sqlite
