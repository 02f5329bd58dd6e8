import RowShape.Context
import RowShape.Error

/-!
Parameters of a provider: constants, and references into the row being rendered.
Before a fetch the references are replaced by what they point at, in order.
-/

namespace RowShape

inductive Argument where
  | literal (v : Json)
  | reference (key : String)

/-- A parameter without a name is bound by its position. -/
structure Parameter where
  name : Option String
  value : Argument

structure Bound where
  name : Option String
  value : Json

namespace Argument

/-- A reference to a missing key is an error. -/
def resolve (context : Option Context) : Argument → Except Error Json
  | literal v => .ok v
  | reference key =>
    match Context.lookup? context key with
    | some v => .ok v
    | none => .error (.reference key)

def referenceText (key : String) : String := "$ref:" ++ key

end Argument

/-- Resolves parameters from left to right; the first missing reference decides. -/
def resolveAll (context : Option Context) : List Parameter → Except Error (List Bound)
  | [] => .ok []
  | p :: rest => do
    let v ← p.value.resolve context
    let bound ← resolveAll context rest
    return ⟨p.name, v⟩ :: bound

def boundValue? (bound : List Bound) (name : String) : Option Json :=
  (bound.find? fun b => b.name == some name).map (·.value)

end RowShape
