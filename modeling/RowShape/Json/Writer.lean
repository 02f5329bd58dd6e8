import RowShape.Json.Basic
import RowShape.Number.Layout

/-!
Compact JSON text: no blanks, members in their order, and only quotes,
backslashes and control characters escaped.
-/

namespace RowShape

/-- Floating numbers keep `.0` and turn to powers of ten outside `1e-5 .. 1e15`. -/
def Json.floatLayout : FloatLayout := ⟨some (-5, 15), true, .toEven⟩

def Number.text : Number → List Char
  | .int i => intText i
  | .float f => Json.floatLayout.finite f

namespace Json

def hexDigit (n : Nat) : Char := Nat.digitChar n

def escaped (c : Char) : List Char :=
  if c = '"' then ['\\', '"']
  else if c = '\\' then ['\\', '\\']
  else if c = '\x08' then ['\\', 'b']
  else if c = '\x0c' then ['\\', 'f']
  else if c = '\n' then ['\\', 'n']
  else if c = '\r' then ['\\', 'r']
  else if c = '\t' then ['\\', 't']
  else if c.toNat < 0x20 then
    ['\\', 'u', '0', '0', hexDigit (c.toNat / 16), hexDigit (c.toNat % 16)]
  else [c]

def quoted (s : List Char) : List Char := '"' :: s.flatMap escaped ++ ['"']

mutual

def compact : Json → List Char
  | .null => "null".toList
  | .bool true => "true".toList
  | .bool false => "false".toList
  | .num n => n.text
  | .str s => quoted s.toList
  | .arr items => '[' :: compactItems items
  | .obj members => '\x7b' :: compactMembers members
termination_by structural v => v

def compactItems : List Json → List Char
  | [] => [']']
  | [v] => compact v ++ [']']
  | v :: rest => compact v ++ ',' :: compactItems rest
termination_by structural items => items

def compactMembers : List (String × Json) → List Char
  | [] => ['\x7d']
  | [(name, v)] => quoted name.toList ++ ':' :: compact v ++ ['\x7d']
  | (name, v) :: rest => quoted name.toList ++ ':' :: compact v ++ ',' :: compactMembers rest
termination_by structural members => members

end

def text (v : Json) : String := String.ofList v.compact

/-- The text of a value inside other text: strings stand without quotes. -/
def plain : Json → List Char
  | .str s => s.toList
  | v => v.compact

end Json

end RowShape
