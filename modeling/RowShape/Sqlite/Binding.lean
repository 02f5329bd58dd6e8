import RowShape.Parameter

/-!
Binding parameters to the numbered slots of a statement. Entries whose name is
declared go to the slot of that name; the others fill the slots that are left,
lowest first, in the order in which they stand.
-/

namespace RowShape.Sqlite

def nameMarks : List Char := [':', '@', '$']

/-- The slot of a name, given the slot of each declared placeholder. A name without a mark
is tried with each of them. -/
def slotOf? (declared : String → Option Nat) (name : String) : Option Nat :=
  if nameMarks.any fun m => name.toList.head? == some m then declared name
  else nameMarks.findSome? fun m => declared (String.ofList (m :: name.toList))

def entrySlot? (declared : String → Option Nat) (b : Bound) : Option Nat :=
  b.name.bind (slotOf? declared)

/-- Puts the entries that have a slot into it, the later over the earlier, and gives back
the values of the others. -/
def place (declared : String → Option Nat) :
    List Bound → List (Option Json) → List (Option Json) × List Json
  | [], slots => (slots, [])
  | b :: rest, slots =>
    match entrySlot? declared b with
    | some i => place declared rest (slots.set (i - 1) (some b.value))
    | none =>
      let (filled, others) := place declared rest slots
      (filled, b.value :: others)

/-- Fills the empty slots in order. Fails with the number of the first that stays empty,
counting from `index`. -/
def fill : Nat → List (Option Json) → List Json → Except Nat (List Json)
  | _, [], _ => .ok []
  | index, some v :: slots, values => do return v :: (← fill (index + 1) slots values)
  | index, none :: slots, v :: values => do return v :: (← fill (index + 1) slots values)
  | index, none :: _, [] => .error index

/-- The values of the slots `1 .. count`. -/
def bind (count : Nat) (declared : String → Option Nat) (params : List Bound) :
    Except Error (List Json) :=
  if params.length ≠ count then .error (.database (.parameterCount params.length count))
  else
    let (slots, others) := place declared params (List.replicate count none)
    match fill 1 slots others with
    | .ok values => .ok values
    | .error index =>
      .error (.configuration s!"no value bound for parameter {index}")

end RowShape.Sqlite
