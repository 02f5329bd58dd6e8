import RowShape.Json.Basic
import RowShape.Number.Numeral

/-!
The tokens of JSON text. A scan reads one character at a time in a `Mode`;
whatever stands between blanks, punctuation and quotes is one bare run, which is
a literal, a number, or a mistake.
-/

namespace RowShape.Json

inductive Token where
  | openArray | closeArray | openObject | closeObject | comma | colon
  | text (s : String)
  | scalar (v : Json)

namespace Token

def ofPunctuation? : Char → Option Token
  | '[' => some .openArray
  | ']' => some .closeArray
  | '\x7b' => some .openObject
  | '\x7d' => some .closeObject
  | ',' => some .comma
  | ':' => some .colon
  | _ => none

def isSpace (c : Char) : Bool := c == ' ' || c == '\n' || c == '\t' || c == '\r'

/-- JSON admits neither a plus sign, nor leading zeros, nor a point without digits on
both sides. -/
def isNumber (n : Numeral) : Bool :=
  n.sign != some '+'
    && !n.whole.isEmpty
    && (n.whole.length == 1 || n.whole.head? != some '0')
    && n.fraction != some []

/-- A number without point and exponent is an integer when 64 bits hold it; negative zero
has no integer form. Numbers beyond the finite range are no JSON values. -/
def ofNumeral? (n : Numeral) : Option Json :=
  let negative := n.sign == some '-'
  let magnitude := digitsValue n.whole
  if n.fraction.isNone && n.exponent.isNone
      && (if negative then 0 < magnitude && magnitude ≤ int64Min.natAbs
        else magnitude ≤ uint64Max) then
    some (.int (if negative then -(magnitude : Int) else magnitude))
  else
    match n.value with
    | .finite f => some (.num (.float f))
    | _ => none

def ofBare? (run : List Char) : Option Json :=
  if run = "null".toList then some .null
  else if run = "true".toList then some (.bool true)
  else if run = "false".toList then some (.bool false)
  else
    match Numeral.scan run with
    | some (n, []) => if isNumber n then ofNumeral? n else none
    | _ => none

end Token

def unescape? : Char → Option Char
  | '"' => some '"'
  | '\\' => some '\\'
  | '/' => some '/'
  | 'b' => some '\x08'
  | 'f' => some '\x0c'
  | 'n' => some '\n'
  | 'r' => some '\r'
  | 't' => some '\t'
  | _ => none

/-- Where a scan stands. Characters of an unfinished token are kept reversed, and `high`
is the first half of a surrogate pair. -/
inductive Mode where
  | between
  | bare (run : List Char)
  | text (done : List Char)
  | escape (done : List Char)
  | unit (done : List Char) (high : Option Nat) (read : Nat) (value : Nat)
  | secondHalf (done : List Char) (high : Nat)
  | secondEscape (done : List Char) (high : Nat)

/-- A finished code unit: a character, the first half of a pair, or a lone half. -/
def Mode.afterUnit (done : List Char) (high : Option Nat) (unit : Nat) : Option Mode :=
  let isHigh := 0xD800 ≤ unit && unit ≤ 0xDBFF
  let isLow := 0xDC00 ≤ unit && unit ≤ 0xDFFF
  match high with
  | some h =>
    if isLow then
      some (.text (Char.ofNat (0x10000 + (h - 0xD800) * 0x400 + (unit - 0xDC00)) :: done))
    else none
  | none =>
    if isHigh then some (.secondHalf done unit)
    else if isLow then none
    else some (.text (Char.ofNat unit :: done))

/-- One character inside a quoted text; the closing quote is not among them. -/
def Mode.insideText (c : Char) : Mode → Option Mode
  | .text done =>
    if c = '\\' then some (.escape done)
    else if c.toNat < 0x20 then none
    else some (.text (c :: done))
  | .escape done =>
    if c = 'u' then some (.unit done none 0 0)
    else (unescape? c).map fun d => .text (d :: done)
  | .unit done high read value =>
    match hexValue? c with
    | none => none
    | some d =>
      if read = 3 then Mode.afterUnit done high (16 * value + d)
      else some (.unit done high (read + 1) (16 * value + d))
  | .secondHalf done high => if c = '\\' then some (.secondEscape done high) else none
  | .secondEscape done high => if c = 'u' then some (.unit done (some high) 0 0) else none
  | .between => none
  | .bare _ => none

/-- The tokens of a text, `none` where a token is malformed. -/
def scan : Mode → List Char → Option (List Token)
  | .between, [] => some []
  | .bare run, [] => (Token.ofBare? run.reverse).map ([.scalar ·])
  | _, [] => none
  | .between, c :: cs =>
    if Token.isSpace c then scan .between cs
    else if c = '"' then scan (.text []) cs
    else match Token.ofPunctuation? c with
      | some t => (scan .between cs).map (t :: ·)
      | none => scan (.bare [c]) cs
  | .bare run, c :: cs =>
    if Token.isSpace c then do
      let v ← Token.ofBare? run.reverse
      (scan .between cs).map (.scalar v :: ·)
    else if c = '"' then none
    else match Token.ofPunctuation? c with
      | some t => do
        let v ← Token.ofBare? run.reverse
        (scan .between cs).map (.scalar v :: t :: ·)
      | none => scan (.bare (c :: run)) cs
  | .text done, '"' :: cs => (scan .between cs).map (.text (String.ofList done.reverse) :: ·)
  | mode, c :: cs =>
    match mode.insideText c with
    | some next => scan next cs
    | none => none

def tokens? (s : List Char) : Option (List Token) := scan .between s

end RowShape.Json
