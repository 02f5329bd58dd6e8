import RowShape.Number.Double

/-!
JSON values and rows. Objects keep the order of their members; two objects are
equal when they hold equal values under the same names, in whatever order.
Integers and floating numbers are different values even where they agree.
-/

namespace RowShape

/-- A JSON number: an integer of 64 bits, signed or unsigned, or a finite binary64 number. -/
inductive Number where
  | int (i : Int)
  | float (f : Finite)
deriving DecidableEq, Repr

inductive Json where
  | null
  | bool (b : Bool)
  | num (n : Number)
  | str (s : String)
  | arr (items : List Json)
  | obj (members : List (String × Json))

instance : Inhabited Json := ⟨.null⟩

/-- One row: an ordered mapping from column names to values. -/
abbrev Row := List (String × Json)

namespace Number

def toInt64? : Number → Option Int
  | .int i => if int64Min ≤ i ∧ i ≤ int64Max then some i else none
  | .float _ => none

def toDouble : Number → Double
  | .int i => .ofInt i
  | .float f => .finite f

/-- Equality by value within integers and within floating numbers. -/
def equal : Number → Number → Bool
  | .int i, .int j => i == j
  | .float f, .float g => f.rank == g.rank
  | _, _ => false

end Number

namespace Row

def get? (row : Row) (name : String) : Option Json := row.lookup name

/-- Replaces the value of a name that is present, and appends one that is not. -/
def insert (row : Row) (name : String) (value : Json) : Row :=
  match row with
  | [] => [(name, value)]
  | (n, v) :: rest => if n = name then (n, value) :: rest else (n, v) :: insert rest name value

theorem get?_cons (row : Row) (name other : String) (value : Json) :
    get? ((name, value) :: row) other = if other = name then some value else row.get? other := by
  by_cases h : other = name
  · simp [get?, h]
  · simp [get?, List.lookup_cons, h, beq_eq_false_iff_ne.mpr h]

theorem get?_insert (row : Row) (name other : String) (value : Json) :
    (row.insert name value).get? other
      = if other = name then some value else row.get? other := by
  induction row with
  | nil => exact get?_cons [] name other value
  | cons m rest ih =>
      obtain ⟨n, v⟩ := m
      simp only [insert]
      split <;> simp only [get?_cons, ih] <;> grind

/-- Members with a repeated name keep the first position and the last value. -/
def ofList (members : List (String × Json)) : Row :=
  members.foldl (fun row m => row.insert m.1 m.2) []

end Row

namespace Json

def int (i : Int) : Json := .num (.int i)

/-- A floating number as JSON, where only finite numbers exist. -/
def ofDouble : Double → Json
  | .finite f => .num (.float f)
  | _ => .null

inductive Kind where
  | null | boolean | number | string | array | object
deriving DecidableEq, Repr

def Kind.name : Kind → String
  | .null => "null"
  | .boolean => "boolean"
  | .number => "number"
  | .string => "string"
  | .array => "array"
  | .object => "object"

def kind : Json → Kind
  | .null => .null
  | .bool _ => .boolean
  | .num _ => .number
  | .str _ => .string
  | .arr _ => .array
  | .obj _ => .object

def carriesNothing : Json → Bool
  | .null => true
  | .arr items => items.isEmpty
  | .obj members => members.isEmpty
  | _ => false

mutual

def equal : Json → Json → Bool
  | .null, .null => true
  | .bool a, .bool b => a == b
  | .num a, .num b => a.equal b
  | .str a, .str b => a == b
  | .arr a, .arr b => equalItems a b
  | .obj a, .obj b => a.length == b.length && matchMembers a b
  | _, _ => false
termination_by structural v => v

def equalItems : List Json → List Json → Bool
  | [], [] => true
  | a :: as, b :: bs => equal a b && equalItems as bs
  | _, _ => false
termination_by structural items => items

/-- Every member has an equal one of its name among the others. -/
def matchMembers : List (String × Json) → List (String × Json) → Bool
  | [], _ => true
  | (name, v) :: rest, others =>
    (match others.lookup name with
      | some w => equal v w
      | none => false) && matchMembers rest others
termination_by structural members => members

end

instance : BEq Json := ⟨equal⟩

end Json

end RowShape
