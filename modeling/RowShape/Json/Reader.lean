import RowShape.Json.Token

/-!
Reading JSON text. The tokens drive a machine whose stack holds the arrays and
objects that are still open; a text is accepted when one value is complete and
nothing is open. The stack may not grow beyond a limit.
-/

namespace RowShape.Json

/-- A container that holds the value being read; finished parts are kept reversed. -/
inductive Frame where
  | array (items : List Json)
  | object (members : List (String × Json)) (name : String)

/-- What the machine has to see next. -/
inductive Expect where
  | value
  /-- The first item of an array, or its end. -/
  | item
  /-- The first name of an object, or its end. -/
  | member
  | name (members : List (String × Json))
  | colon (members : List (String × Json)) (name : String)
  | rest (v : Json)

structure Reading where
  stack : List Frame
  expect : Expect

namespace Reading

def start : Reading := ⟨[], .value⟩

def openValue (limit : Nat) (stack : List Frame) : Token → Option Reading
  | .scalar v => some ⟨stack, .rest v⟩
  | .text s => some ⟨stack, .rest (.str s)⟩
  | .openArray => if stack.length < limit then some ⟨stack, .item⟩ else none
  | .openObject => if stack.length < limit then some ⟨stack, .member⟩ else none
  | _ => none

def closeValue (v : Json) : List Frame → Token → Option Reading
  | .array items :: stack, .comma => some ⟨.array (v :: items) :: stack, .value⟩
  | .array items :: stack, .closeArray => some ⟨stack, .rest (.arr (v :: items).reverse)⟩
  | .object members name :: stack, .comma => some ⟨stack, .name ((name, v) :: members)⟩
  | .object members name :: stack, .closeObject =>
    some ⟨stack, .rest (.obj (Row.ofList ((name, v) :: members).reverse))⟩
  | _, _ => none

def step (limit : Nat) (r : Reading) (t : Token) : Option Reading :=
  match r.expect, t with
  | .value, t => openValue limit r.stack t
  | .item, .closeArray => some ⟨r.stack, .rest (.arr [])⟩
  | .item, t => openValue limit (.array [] :: r.stack) t
  | .member, .closeObject => some ⟨r.stack, .rest (.obj [])⟩
  | .member, .text s => some ⟨r.stack, .colon [] s⟩
  | .name members, .text s => some ⟨r.stack, .colon members s⟩
  | .colon members name, .colon => some ⟨.object members name :: r.stack, .value⟩
  | .rest v, t => closeValue v r.stack t
  | _, _ => none

def result? (r : Reading) : Option Json :=
  match r.stack, r.expect with
  | [], .rest v => some v
  | _, _ => none

end Reading

/-- Containers nested deeper than this are refused. -/
def nestingLimit : Nat := 127

/-- Reads a text that holds one JSON value, with at most `limit` containers open at once. -/
def readWithin? (limit : Nat) (s : List Char) : Option Json := do
  let tokens ← tokens? s
  let last ← tokens.foldlM (Reading.step limit) Reading.start
  last.result?

def read? (s : List Char) : Option Json := readWithin? nestingLimit s

end RowShape.Json
