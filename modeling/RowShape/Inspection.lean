import RowShape.Definition
import RowShape.Json.Writer
import RowShape.Text.Printable

/-!
Sources and values as people see them when they look for a mistake: the kind of
each value by name, and texts in quotes with nothing in them that cannot be seen.
-/

namespace RowShape

/-- A character inside quotes. One that does not print is written by its code point. -/
def visible (c : Char) : List Char :=
  if c = '"' then ['\\', '"']
  else if c = '\\' then ['\\', '\\']
  else if c = '\n' then ['\\', 'n']
  else if c = '\r' then ['\\', 'r']
  else if c = '\t' then ['\\', 't']
  else if c = '\x00' then ['\\', '0']
  else if isPrintable c then [c]
  else ['\\', 'u', '\x7b'] ++ Nat.toDigits 16 c.toNat ++ ['\x7d']

def visibleText (s : String) : List Char := '"' :: s.toList.flatMap visible ++ ['"']

namespace Json

mutual

def inspected : Json → List Char
  | .null => "Null".toList
  | .bool b => "Bool(".toList ++ (if b then "true".toList else "false".toList) ++ [')']
  | .num n => "Number(".toList ++ n.text ++ [')']
  | .str s => "String(".toList ++ visibleText s ++ [')']
  | .arr items => "Array [".toList ++ inspectedItems items
  | .obj members => "Object \x7b".toList ++ inspectedMembers members
termination_by structural v => v

def inspectedItems : List Json → List Char
  | [] => [']']
  | [v] => inspected v ++ [']']
  | v :: rest => inspected v ++ ',' :: ' ' :: inspectedItems rest
termination_by structural items => items

def inspectedMembers : List (String × Json) → List Char
  | [] => ['\x7d']
  | [(name, v)] => visibleText name ++ ':' :: ' ' :: inspected v ++ ['\x7d']
  | (name, v) :: rest =>
    visibleText name ++ ':' :: ' ' :: inspected v ++ ',' :: ' ' :: inspectedMembers rest
termination_by structural members => members

end

end Json

/-- What a source holds; a function is opaque. -/
def Source.inspected : Source → List Char
  | .query sql => "Query \x7b sql: ".toList ++ visibleText sql ++ " \x7d".toList
  | .fixed v => "Static(".toList ++ v.inspected ++ [')']
  | .callable _ => "Callable(FetchFn(..))".toList

end RowShape
