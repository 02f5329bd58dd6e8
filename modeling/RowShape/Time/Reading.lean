import RowShape.Json.Basic
import RowShape.Number.Numeral
import RowShape.Text.Blank
import RowShape.Text.Search
import RowShape.Time.Timestamp

/-!
Reading timestamps. RFC 3339 is read strictly, column by column. The other
layouts are lists of items: numbers may have blanks in front and fewer digits
than their width, and a gap stands for any run of blanks, the empty one included.
-/

namespace RowShape

structure TimeParts where
  year : Int := 0
  month : Nat := 0
  day : Nat := 0
  hour : Nat := 0
  minute : Nat := 0
  second : Nat := 0
  nanos : Nat := 0
  offset : Int := 0

def TimeParts.timestamp? (p : TimeParts) : Option Timestamp := do
  let date ← Date.of? p.year p.month p.day
  let time ← TimeOfDay.of? p.hour p.minute p.second p.nanos
  Timestamp.of? date time p.offset

/-- One to `width` digits. -/
def readNumber? (width : Nat) (s : List Char) : Option (Nat × List Char) :=
  match (s.take width).takeWhile Char.isDigit with
  | [] => none
  | digits => some (digitsValue digits, s.drop digits.length)

def readTwo? : List Char → Option (Nat × List Char)
  | a :: b :: rest =>
    if a.isDigit && b.isDigit then some (digitsValue [a, b], rest) else none
  | _ => none

/-- A point and the digits after it as nanoseconds; digits after the ninth are dropped. -/
def readFraction? (s : List Char) : Option (Nat × List Char) :=
  match s with
  | '.' :: rest =>
    match rest.takeWhile Char.isDigit with
    | [] => none
    | digits =>
      let kept := digits.take 9
      some (digitsValue kept * Nat.pow 10 (9 - kept.length), rest.dropWhile Char.isDigit)
  | s => some (0, s)

/-- A sign, two digits of hours, a separator, and two digits of minutes below 60. -/
def readOffset? (separator : List Char → Option (List Char)) (s : List Char) :
    Option (Int × List Char) := do
  let negative ← match s.head? with
    | some '+' => some false
    | some '-' => some true
    | some '\u2212' => some true
    | _ => none
  let (hours, rest) ← readTwo? s.tail
  let (minutes, rest) ← readTwo? (← separator rest)
  if 60 ≤ minutes then none
  else
    let seconds : Int := (hours * 3600 + minutes * 60 : Nat)
    some (if negative then -seconds else seconds, rest)

inductive LayoutItem where
  | year | month | day | hour | minute | second | fraction | offset
  /-- Any run of blanks. -/
  | gap
  | mark (c : Char)
deriving DecidableEq, Repr

/-- A year of at most four digits, or of any number of digits after a sign. -/
def readYear? (s : List Char) : Option (Int × List Char) :=
  match s with
  | '-' :: rest => (readNumber? rest.length rest).map fun (n, r) => (-(n : Int), r)
  | '+' :: rest => (readNumber? rest.length rest).map fun (n, r) => ((n : Int), r)
  | s => (readNumber? 4 s).map fun (n, r) => ((n : Int), r)

def LayoutItem.read? (p : TimeParts) (s : List Char) :
    LayoutItem → Option (TimeParts × List Char)
  | .year => (readYear? (trimStart s)).map fun (n, r) => ({ p with year := n }, r)
  | .month => (readNumber? 2 (trimStart s)).map fun (n, r) => ({ p with month := n }, r)
  | .day => (readNumber? 2 (trimStart s)).map fun (n, r) => ({ p with day := n }, r)
  | .hour => (readNumber? 2 (trimStart s)).map fun (n, r) => ({ p with hour := n }, r)
  | .minute => (readNumber? 2 (trimStart s)).map fun (n, r) => ({ p with minute := n }, r)
  | .second => (readNumber? 2 (trimStart s)).map fun (n, r) => ({ p with second := n }, r)
  | .fraction => (readFraction? s).map fun (n, r) => ({ p with nanos := n }, r)
  | .offset =>
    (readOffset? (fun r => some (r.dropWhile fun c => c == ':' || isBlank c)) (trimStart s)).map
      fun (n, r) => ({ p with offset := n }, r)
  | .gap => some (p, trimStart s)
  | .mark c => (stripLead? [c] s).map fun r => (p, r)

abbrev Layout := List LayoutItem

namespace Layout

/-- The numbers of a text that has the layout from end to end. -/
def read? (s : List Char) : Layout → TimeParts → Option TimeParts
  | [], p => if s.isEmpty then some p else none
  | item :: rest, p =>
    match item.read? p s with
    | some (q, r) => read? r rest q
    | none => none

def day : Layout := [.year, .mark '-', .month, .mark '-', .day]

def clock : Layout := [.hour, .mark ':', .minute, .mark ':', .second, .fraction]

/-- The layouts that are tried after RFC 3339, in this order. Without an offset a text is
in UTC. -/
def known : List Layout :=
  [day ++ .gap :: clock ++ [.offset],
    day ++ .gap :: clock,
    day ++ .mark 'T' :: clock,
    day ++ [.gap, .hour, .mark ':', .minute],
    day]

end Layout

/-- Day, `T` or a space, time with optional fraction, and `Z` or an offset with a colon. -/
def readRfc3339? (s : List Char) : Option TimeParts := do
  let (year, s) ← if (s.take 4).length = 4 && (s.take 4).all Char.isDigit
    then some (digitsValue (s.take 4), s.drop 4) else none
  let (month, s) ← readTwo? (← stripLead? ['-'] s)
  let (day, s) ← readTwo? (← stripLead? ['-'] s)
  let s ← match s with
    | c :: rest => if c == 'T' || c == 't' || c == ' ' then some rest else none
    | [] => none
  let (hour, s) ← readTwo? s
  let (minute, s) ← readTwo? (← stripLead? [':'] s)
  let (second, s) ← readTwo? (← stripLead? [':'] s)
  let (nanos, s) ← readFraction? s
  let (offset, s) ← match s with
    | 'Z' :: rest => some (0, rest)
    | 'z' :: rest => some (0, rest)
    | s => readOffset? (stripLead? [':']) s
  if s.isEmpty then some ⟨year, month, day, hour, minute, second, nanos, offset⟩ else none

namespace Timestamp

/-- Dates that stand for a missing one. -/
def zeroDates : List String := ["0000-00-00 00:00:00", "0000-00-00"]

def ofText? (s : List Char) : Option Timestamp :=
  let s := trim s
  if s.isEmpty || zeroDates.any (·.toList == s) then none
  else
    match readRfc3339? s >>= TimeParts.timestamp? with
    | some t => some t
    | none => Layout.known.findSome? fun layout =>
        Layout.read? s layout {} >>= TimeParts.timestamp?

/-- Texts in the known layouts and integers as seconds since 1970; nothing else. -/
def ofJson? : Json → Option Timestamp
  | .str s => ofText? s.toList
  | .num (.int i) => if int64Min ≤ i ∧ i ≤ int64Max then ofUnixSeconds? i else none
  | _ => none

/-- The RFC 3339 text of a value that is a timestamp, and null otherwise. -/
def normalize (v : Json) : Json :=
  match ofJson? v with
  | some t => .str (String.ofList t.text)
  | none => .null

end Timestamp

end RowShape
