import RowShape.Number.Numeral

/-!
The quoted texts of TOML: basic texts with escapes and literal ones without, on
one line or on several.
-/

namespace RowShape.Toml

/-- Control characters other than the tab are admitted nowhere. -/
def isAllowed (c : Char) : Bool := c == '\t' || (0x20 ≤ c.toNat && c.toNat != 0x7F)

def isBlank (c : Char) : Bool := c == ' ' || c == '\t'

def charOfHex? (digits : List Char) : Option Char := do
  let values ← digits.mapM hexValue?
  let n := values.foldl (fun n d => 16 * n + d) 0
  if n < 0xD800 || (0xDFFF < n && n < 0x110000) then some (Char.ofNat n) else none

def unescape? : Char → Option Char
  | 'b' => some '\x08'
  | 't' => some '\t'
  | 'n' => some '\n'
  | 'f' => some '\x0c'
  | 'r' => some '\r'
  | 'e' => some '\x1b'
  | '"' => some '"'
  | '\\' => some '\\'
  | _ => none

def escapeDigits? : Char → Option Nat
  | 'x' => some 2
  | 'u' => some 4
  | 'U' => some 8
  | _ => none

/-- The character that is written behind a backslash, and how many characters write it. -/
def escape? : List Char → Option (Char × Nat)
  | [] => none
  | c :: rest =>
    match escapeDigits? c with
    | some n =>
      if (rest.take n).length = n then (charOfHex? (rest.take n)).map (·, n + 1) else none
    | none => (unescape? c).map (·, 1)

/-- A basic text up to its closing quote; `skip` counts the characters of an escape that are
still to be passed over. -/
def basic : Nat → List Char → Option (List Char × List Char)
  | _, [] => none
  | skip + 1, _ :: rest => basic skip rest
  | 0, '"' :: rest => some ([], rest)
  | 0, '\\' :: rest =>
    match escape? rest with
    | some (c, n) => (basic n rest).map fun (s, r) => (c :: s, r)
    | none => none
  | 0, c :: rest =>
    if isAllowed c then (basic 0 rest).map fun (s, r) => (c :: s, r) else none

def literal : List Char → Option (List Char × List Char)
  | [] => none
  | '\'' :: rest => some ([], rest)
  | c :: rest => if isAllowed c then (literal rest).map fun (s, r) => (c :: s, r) else none

/-- How many characters are dropped at a backslash that ends a line: the blanks up to the
line end, and all blanks and line ends behind it. None when the line does not end. -/
def lineJoin (ended : Bool) : List Char → Option Nat
  | '\n' :: rest => (lineJoin true rest).map (· + 1)
  | '\r' :: '\n' :: rest => (lineJoin true rest).map (· + 2)
  | c :: rest =>
    if isBlank c then (lineJoin ended rest).map (· + 1) else if ended then some 0 else none
  | [] => if ended then some 0 else none

/-- A basic text of several lines; two quotes may stand before the closing three. A carriage
return stands before a line feed only. -/
def basicLines : Nat → List Char → Option (List Char × List Char)
  | _, [] => none
  | skip + 1, _ :: rest => basicLines skip rest
  | 0, '"' :: '"' :: '"' :: '"' :: '"' :: rest => some (['"', '"'], rest)
  | 0, '"' :: '"' :: '"' :: '"' :: rest => some (['"'], rest)
  | 0, '"' :: '"' :: '"' :: rest => some ([], rest)
  | 0, '\\' :: rest =>
    match escape? rest with
    | some (c, n) => (basicLines n rest).map fun (s, r) => (c :: s, r)
    | none =>
      match lineJoin false rest with
      | some n => basicLines n rest
      | none => none
  | 0, c :: rest =>
    if isAllowed c || c == '\n' || (c == '\r' && rest.head? == some '\n') then
      (basicLines 0 rest).map fun (s, r) => (c :: s, r)
    else none

def literalLines : List Char → Option (List Char × List Char)
  | [] => none
  | '\'' :: '\'' :: '\'' :: '\'' :: '\'' :: rest => some (['\'', '\''], rest)
  | '\'' :: '\'' :: '\'' :: '\'' :: rest => some (['\''], rest)
  | '\'' :: '\'' :: '\'' :: rest => some ([], rest)
  | c :: rest =>
    if isAllowed c || c == '\n' || (c == '\r' && rest.head? == some '\n') then
      (literalLines rest).map fun (s, r) => (c :: s, r)
    else none

/-- A line end directly behind the opening quotes belongs to no text. -/
def dropFirstNewline : List Char → List Char
  | '\n' :: rest => rest
  | '\r' :: '\n' :: rest => rest
  | s => s

def quoted? : List Char → Option (List Char × List Char)
  | '"' :: '"' :: '"' :: rest => basicLines 0 (dropFirstNewline rest)
  | '"' :: rest => basic 0 rest
  | '\'' :: '\'' :: '\'' :: rest => literalLines (dropFirstNewline rest)
  | '\'' :: rest => literal rest
  | _ => none

end RowShape.Toml
