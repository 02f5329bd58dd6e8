import RowShape.Sqlite.Cell
import RowShape.Sqlite.Word

/-!
The `SELECT` statements that are understood, and their reading from SQL text:
outputs over one table or over none, with conditions, an order and a window of
the rows. Placeholders are numbered as they are met.
-/

namespace RowShape.Sqlite

inductive Item where
  | constant (c : Cell)
  | slot (number : Nat)
deriving DecidableEq, Repr

inductive Operand where
  | item (i : Item)
  | name (s : String)
deriving DecidableEq, Repr

inductive Comparison where
  | equal | different | less | greater
deriving DecidableEq, Repr

structure Condition where
  left : Operand
  comparison : Comparison
  right : Operand
deriving DecidableEq, Repr

inductive Output where
  | everything
  /-- Operands, each with the name it is given, if any. -/
  | operands (list : List (Operand × Option String))
  | count (name : String)
deriving DecidableEq, Repr

structure Selection where
  output : Output
  table : Option String
  conditions : List Condition
  /-- A name, and whether the order is descending. -/
  order : Option (String × Bool)
  limit : Option Item
  offset : Option Item
deriving DecidableEq, Repr

/-- The placeholders of a statement: how many slots there are, and the slots of names. -/
structure Placeholders where
  count : Nat
  named : List (String × Nat)
deriving DecidableEq, Repr

structure Statement where
  /-- A text of blanks and semicolons holds none. -/
  selection : Option Selection
  placeholders : Placeholders
deriving DecidableEq, Repr

def Placeholders.slotOf? (p : Placeholders) (name : String) : Option Nat := p.named.lookup name

/-- Reading takes words from the front and numbers placeholders on the way. -/
structure ReadState where
  words : List Word
  placeholders : Placeholders

abbrev Read := StateT ReadState Option

namespace Read

def fail {α : Type} : Read α := fun _ => none

def takeIf (wanted : Word → Bool) : Read Bool := fun s =>
  match s.words with
  | w :: rest => if wanted w then some (true, { s with words := rest }) else some (false, s)
  | [] => some (false, s)

def expect (wanted : Word → Bool) : Read Unit := do
  if ← takeIf wanted then return () else fail

def keyword (k : String) : Read Unit := expect (Word.isKeyword k)

/-- A name of a table, or one that is given to an output. -/
def name : Read String := fun s =>
  match s.words with
  | .name n :: rest =>
    if Word.isAmong Word.reserved n then none else some (n, { s with words := rest })
  | _ => none

def column : Read String := do
  let n ← name
  if Word.isAmong Word.operators n then fail else return n

def nextSlot : Read Nat := fun s =>
  let n := s.placeholders.count + 1
  some (n, { s with placeholders := { s.placeholders with count := n } })

/-- The slot of a number, which all lower slots precede. -/
def numberedSlot (n : Nat) : Read Nat := fun s =>
  some (n, { s with placeholders := { s.placeholders with count := max n s.placeholders.count } })

/-- The slot of a name: the one it has, or the next. -/
def namedSlot (n : String) : Read Nat := do
  match (← get).placeholders.slotOf? n with
  | some i => return i
  | none =>
    let i ← nextSlot
    modify fun s =>
      { s with placeholders := { s.placeholders with named := (n, i) :: s.placeholders.named } }
    return i

/-- Whole numbers of 64 bits are integers, all others reals. -/
def numberCell (negative : Bool) (n : Numeral) : Cell :=
  let magnitude : Int := digitsValue n.whole
  let i := if negative then -magnitude else magnitude
  if n.fraction.isNone && n.exponent.isNone && int64Min ≤ i && i ≤ int64Max then .integer i
  else .real ({ n with sign := if negative then some '-' else none }).value

/-- Hexadecimal digits give the 64 bits of an integer. The least integer is not written with
a minus sign before them. -/
def hexCell? (negative : Bool) (n : Nat) : Option Cell :=
  let i : Int := if n ≤ int64Max then n else n - (uint64Max + 1)
  if uint64Max < n || (negative && i == int64Min) then none
  else some (.integer (if negative then -i else i))

def word : Read Word := fun s =>
  match s.words with
  | w :: rest => some (w, { s with words := rest })
  | [] => none

/-- The constant of a number, which the sign before it belongs to. -/
def number (negative : Bool) : Word → Read Item
  | .number n => return .constant (numberCell negative n)
  | .hex n =>
    match hexCell? negative n with
    | some c => return .constant c
    | none => fail
  | _ => fail

def item : Read Item := do
  match ← word with
  | .mark '-' => number true (← word)
  | .text s => return .constant (.text s)
  | .blob bytes => return .constant (.blob bytes)
  | .numbered none => return .slot (← nextSlot)
  | .numbered (some n) => return .slot (← numberedSlot n)
  | .named n => return .slot (← namedSlot n)
  | w => if Word.isKeyword "null" w then return .constant .null else number false w

/-- One or more parts with a separator between them; the words bound their number. -/
def separated {α : Type} (separator : Word → Bool) (part : Read α) : Nat → Read (List α)
  | 0 => fail
  | fuel + 1 => do
    let a ← part
    if ← takeIf separator then return a :: (← separated separator part fuel) else return [a]

def list {α : Type} (separator : Word → Bool) (part : Read α) : Read (List α) := do
  separated separator part (← get).words.length

def comma : Word → Bool := (· == .mark ',')

def startsName : List Word → Bool
  | .name n :: _ => !Word.isKeyword "null" (.name n)
  | _ => false

def operand : Read Operand := do
  if startsName (← get).words then return .name (← column) else return .item (← item)

/-- An output; only those that are names may go without a name of their own. -/
def output : Read (Operand × Option String) := do
  let o ← operand
  if ← takeIf (Word.isKeyword "as") then return (o, some (← name))
  else match o with
    | .name _ => return (o, none)
    | .item _ => fail

def comparison : Read Comparison := do
  match ← word with
  | .mark '=' => return .equal
  | .different => return .different
  | .mark '<' => return .less
  | .mark '>' => return .greater
  | _ => fail

def condition : Read Condition := do
  let left ← operand
  let c ← comparison
  return ⟨left, c, ← operand⟩

def after {α : Type} (k : String) (part : Read α) : Read (Option α) := do
  if ← takeIf (Word.isKeyword k) then return some (← part) else return none

/-- Whether an order is descending; it ascends unless it says so. -/
def direction : Read Bool := do
  if ← takeIf (Word.isKeyword "asc") then return false
  else takeIf (Word.isKeyword "desc")

/-- Whether the output is that of a count, a name followed by a parenthesis. -/
def startsCount : List Word → Bool
  | w :: .mark '(' :: _ => Word.isKeyword "count" w
  | _ => false

def outputs : Read Output := do
  if ← takeIf (· == .mark '*') then return .everything
  else if startsCount (← get).words then
    let _ ← word
    expect (· == .mark '(')
    expect (· == .mark '*')
    expect (· == .mark ')')
    keyword "as"
    return .count (← name)
  else return .operands (← list comma output)

def selection : Read Selection := do
  keyword "select"
  let output ← outputs
  let table ← after "from" name
  let conditions ← after "where" (list (Word.isKeyword "and") condition)
  let order ← after "order" do
    keyword "by"
    let n ← column
    return (n, ← direction)
  let limit ← after "limit" item
  let offset ← if limit.isSome then after "offset" item else pure none
  return ⟨output, table, conditions.getD [], order, limit, offset⟩

end Read

def dropTerminators (words : List Word) : List Word :=
  let isTerminator (w : Word) : Bool := w == .mark ';'
  ((words.dropWhile isTerminator).reverse.dropWhile isTerminator).reverse

def Statement.ofText? (sql : String) : Option Statement := do
  let words := dropTerminators (← Word.scanAll sql.toList.length sql.toList)
  if words.isEmpty then some ⟨none, ⟨0, []⟩⟩
  else
    let (selection, s) ← Read.selection ⟨words, ⟨0, []⟩⟩
    if s.words.isEmpty then some ⟨selection, s.placeholders⟩ else none

end RowShape.Sqlite
