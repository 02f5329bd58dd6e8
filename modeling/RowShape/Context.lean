import RowShape.Json.Basic

/-!
The row in scope. Whatever reads from the current row goes through `lookup`, so
any mapping from names to values can stand for it.
-/

namespace RowShape

structure Context where
  lookup : String → Option Json
  /-- The whole context as a row, when it has one. -/
  row : Option Row

namespace Context

def ofRow (row : Row) : Context := ⟨row.get?, some row⟩

/-- Only objects have keys. -/
def ofJson : Json → Context
  | .obj members => ofRow members
  | _ => ⟨fun _ => none, none⟩

def lookup? (context : Option Context) (name : String) : Option Json :=
  context.bind (·.lookup name)

end Context

end RowShape
