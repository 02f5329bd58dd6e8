import RowShape.Fetching
import RowShape.Sqlite.Binding
import RowShape.Sqlite.Statement
import RowShape.Text.Blank

/-!
Databases of tables without declared column types, and the answers of statements
over them. Nulls compare with nothing in a condition, but come first in an order.
-/

namespace RowShape.Sqlite

structure Table where
  name : String
  columns : List String
  rows : List (List Cell)

abbrev Database := List Table

namespace Cell

/-- Storage classes in their order: null, numbers, text, blobs. -/
def classRank : Cell → Nat
  | null => 0
  | integer _ => 1
  | real _ => 1
  | text _ => 2
  | blob _ => 3

def compareDoubles : Double → Double → Ordering
  | .finite f, .finite g => compare f.rank g.rank
  | .infinite a, .infinite b => compare b a
  | .infinite negative, _ => if negative then .lt else .gt
  | _, .infinite negative => if negative then .gt else .lt
  | _, _ => .eq

def compareMixed (i : Int) : Double → Ordering
  | .finite f => f.compareInt i
  | .infinite negative => if negative then .gt else .lt
  | .nan => .eq

/-- The order of cells: by class, then numbers by value, text by code points and blobs by
bytes. -/
def order : Cell → Cell → Ordering
  | integer i, integer j => compare i j
  | integer i, real x => compareMixed i x
  | real x, integer i => (compareMixed i x).swap
  | real x, real y => compareDoubles x y
  | text s, text t => compareOfLessAndEq s t
  | blob a, blob b => compareOfLessAndEq a b
  | a, b => compare a.classRank b.classRank

def isNumberSpace (c : Char) : Bool := Word.isSpace c || c == '\x0b'

/-- A text that is a number, blanks around it aside, as that number; other cells as they
are. -/
def numeric : Cell → Cell
  | text s =>
    match Numeral.scan (dropEndWhile isNumberSpace (s.toList.dropWhile isNumberSpace)) with
    | some (n, []) => Read.numberCell (n.sign == some '-') n
    | _ => text s
  | c => c

/-- The whole number that a number or a numeric text stands for. Reals at the ends of the
64-bit range stand for none. -/
def whole? (c : Cell) : Option Int :=
  match c.numeric with
  | integer i => some i
  | real (.finite f) =>
    if f.ratio.1 % f.ratio.2 = 0 ∧ int64Min < f.truncate ∧ f.truncate < int64Max then
      some f.truncate
    else none
  | _ => none

end Cell

/-- A comparison that involves null does not hold. -/
def Comparison.holds (c : Comparison) (a b : Cell) : Bool :=
  !a.isNull && !b.isNull && match c, a.order b with
    | .equal, .eq => true
    | .different, .lt => true
    | .different, .gt => true
    | .less, .lt => true
    | .greater, .gt => true
    | _, _ => false

def sameName (a b : String) : Bool := equalFoldingCase a.toList b.toList

abbrev NumberedRow := List Cell × Nat

def Item.cell (slots : List Cell) : Item → Cell
  | constant c => c
  | slot n => slots.getD (n - 1) .null

inductive Source where
  | column (position : Nat)
  /-- The number of the row, which counts from one. -/
  | rowNumber
  | item (i : Item)

namespace Source

def cell (slots : List Cell) (row : NumberedRow) : Source → Cell
  | column i => row.1.getD i .null
  | rowNumber => .integer row.2
  | item i => i.cell slots

def isRowNumber : Source → Bool
  | rowNumber => true
  | _ => false

end Source

/-- Compares two sources in a row; what is compared with a row number is taken as a
number. -/
def Comparison.holdsIn (c : Comparison) (slots : List Cell) (row : NumberedRow)
    (a b : Source) : Bool :=
  if a.isRowNumber || b.isRowNumber then
    c.holds (a.cell slots row).numeric (b.cell slots row).numeric
  else c.holds (a.cell slots row) (b.cell slots row)

/-- The names of the row number where no column has them. -/
def rowNumberNames : List String := ["rowid", "oid", "_rowid_"]

/-- The truth values, which are names of last resort. -/
def truth? (name : String) : Option Source :=
  if sameName name "true" then some (.item (.constant (.integer 1)))
  else if sameName name "false" then some (.item (.constant (.integer 0)))
  else none

namespace Table

/-- What a name stands for before the names of outputs are tried: a column in any mixture of
cases, or the row number. -/
def source? (t : Table) (name : String) : Option Source :=
  match t.columns.findIdx? (sameName name) with
  | some i => some (.column i)
  | none => if rowNumberNames.any (sameName name) then some .rowNumber else none

def outputName (t : Table) (name : String) : Source → String
  | .column i => t.columns.getD i name
  | .rowNumber => "rowid"
  | .item _ => name

end Table

/-- The rows of a table, or the one empty row of a statement without a table. -/
def rowsOf : Option Table → List NumberedRow
  | none => [([], 0)]
  | some t => t.rows.zipIdx 1

structure Column where
  name : String
  isGiven : Bool
  source : Source

inductive Outputs where
  | columns (list : List Column)
  | count (name : String)

inductive Named where
  | source (s : Source)
  | count

def Outputs.named? (name : String) : Outputs → Option Named
  | columns list => (list.find? fun c => c.isGiven && sameName name c.name).map (.source ·.source)
  | count n => if sameName name n then some .count else none

/-- A selection whose names are resolved. -/
structure Prepared where
  table : Option Table
  outputs : Outputs
  conditions : List (Source × Comparison × Source)
  order : Option (Source × Bool)
  limit : Option Item
  offset : Option Item

def unknownName {α : Type} (name : String) : Except Error α :=
  .error (.database (.unknownColumn name))

/-- A column of the answer, whose names are those of the table only. -/
def prepareOutput (t : Option Table) (o : Operand) (given : Option String) :
    Except Error Column :=
  match o with
  | .item i => .ok ⟨given.getD "", given.isSome, .item i⟩
  | .name n =>
    match (t.bind (·.source? n)).orElse fun _ => truth? n with
    | some s =>
      .ok ⟨given.getD ((t.map fun t => t.outputName n s).getD n), given.isSome, s⟩
    | none => unknownName n

def prepareOutputs (t : Option Table) : Output → Except Error Outputs
  | .everything =>
    match t with
    | some t =>
      .ok (.columns (t.columns.zipIdx.map fun (name, i) => ⟨name, false, .column i⟩))
    | none => .error (.database .malformed)
  | .count name => .ok (.count name)
  | .operands list => do
    return .columns (← list.mapM fun (o, given) => prepareOutput t o given)

/-- A name in a condition: a column before an output, and never a count. -/
def prepareName (t : Option Table) (outputs : Outputs) (name : String) :
    Except Error Source :=
  match t.bind (·.source? name) with
  | some s => .ok s
  | none =>
    match outputs.named? name, truth? name with
    | some (.source s), _ => .ok s
    | some .count, _ => unknownName name
    | none, some s => .ok s
    | none, none => unknownName name

def prepareOperand (t : Option Table) (outputs : Outputs) : Operand → Except Error Source
  | .item i => .ok (.item i)
  | .name n => prepareName t outputs n

/-- A name in an order: an output before a column. A count has one row and needs no order. -/
def prepareOrder (t : Option Table) (outputs : Outputs) (name : String)
    (descending : Bool) : Except Error (Option (Source × Bool)) :=
  match outputs.named? name with
  | some (.source s) => .ok (some (s, descending))
  | some .count => .ok none
  | none => do
    return some (← prepareName t outputs name, descending)

def Database.table? (db : Database) (name : String) : Except Error Table :=
  match db.find? fun t => sameName t.name name with
  | some t => .ok t
  | none => .error (.database (.unknownTable name))

def prepare (db : Database) (s : Selection) : Except Error Prepared := do
  let table ← s.table.mapM db.table?
  let outputs ← prepareOutputs table s.output
  let conditions ← s.conditions.mapM fun c => do
    return (← prepareOperand table outputs c.left, c.comparison,
      ← prepareOperand table outputs c.right)
  let order ← match s.order with
    | none => .ok none
    | some (name, descending) => prepareOrder table outputs name descending
  return ⟨table, outputs, conditions, order, s.limit, s.offset⟩

def windowBound (slots : List Cell) (i : Item) : Except Error Int :=
  match (i.cell slots).whole? with
  | some n => .ok n
  | none => .error (.database .malformed)

/-- The rows after the offset, and of those as many as the limit allows. Negative limits
allow all rows, and negative offsets skip none. -/
def window {α : Type} (limit offset : Option Int) (rows : List α) : List α :=
  let rest := rows.drop (offset.getD 0).toNat
  match limit with
  | none => rest
  | some n => if n < 0 then rest else rest.take n.toNat

namespace Prepared

def matchingRows (p : Prepared) (slots : List Cell) : List NumberedRow :=
  (rowsOf p.table).filter fun row =>
    p.conditions.all fun (a, c, b) => c.holdsIn slots row a b

/-- Rows that compare equal keep their order, also in a descending order. -/
def orderedRows (p : Prepared) (slots : List Cell) (rows : List NumberedRow) :
    List NumberedRow :=
  match p.order with
  | none => rows
  | some (s, descending) => rows.mergeSort fun a b =>
    let o := (s.cell slots a).order (s.cell slots b)
    if descending then o != .lt else o != .gt

def outputRows (p : Prepared) (slots : List Cell) : List Row :=
  let rows := p.orderedRows slots (p.matchingRows slots)
  match p.outputs with
  | .count name => [[(name, .int rows.length)]]
  | .columns list => rows.map fun row =>
    Row.ofList (list.map fun c => (c.name, (c.source.cell slots row).toJson))

/-- The rows in the window. A limit of zero leaves the offset unread. -/
def rows (p : Prepared) (slots : List Cell) : Except Error (List Row) := do
  let limit ← p.limit.mapM (windowBound slots)
  if limit = some 0 then return []
  else return window limit (← p.offset.mapM (windowBound slots)) (p.outputRows slots)

end Prepared

def Placeholders.bindSlots (p : Placeholders) (params : List Bound) :
    Except Error (List Cell) := do
  return (← bind p.count p.slotOf? params).map Cell.ofJson

/-- Answers a call. Names are resolved before parameters are bound, and a text without a
statement fails only after that. -/
def Database.answer (db : Database) (call : Call) : Except Error (List Row) :=
  match Statement.ofText? call.sql with
  | none => .error (.database .malformed)
  | some s => do
    let prepared ← s.selection.mapM (prepare db)
    let slots ← s.placeholders.bindSlots call.params
    match prepared with
    | some p => p.rows slots
    | none => .error (.database .malformed)

def Database.client (db : Database) : Client := db.answer

end RowShape.Sqlite
