import RowShape.Number.Numeral
import RowShape.Text.Search
import RowShape.Time.Timestamp
import RowShape.Toml.Basic

/-!
The TOML values without quotes and brackets: booleans, integers, floating
numbers, and dates with times.
-/

namespace RowShape.Toml

def digitRun? (width : Nat) (s : List Char) : Option (Nat × List Char) :=
  let digits := s.takeWhile Char.isDigit
  if digits.length = width then some (digitsValue digits, s.drop width) else none

/-- What follows a date of the calendar. -/
def afterDate? (s : List Char) : Option (List Char) := do
  let (year, s) ← digitRun? 4 s
  let (month, s) ← digitRun? 2 (← stripLead? ['-'] s)
  let (day, s) ← digitRun? 2 (← stripLead? ['-'] s)
  let _ ← Date.of? year month day
  return s

/-- What follows the fraction of a second. A point needs a digit behind it. -/
def afterFraction? : List Char → Option (List Char)
  | '.' :: rest =>
    if rest.head?.any Char.isDigit then some (rest.dropWhile Char.isDigit) else none
  | s => some s

/-- What follows a time of day. Seconds may be left out, and a fraction with them. -/
def afterTime? (s : List Char) : Option (List Char) := do
  let (hour, s) ← digitRun? 2 s
  let (minute, s) ← digitRun? 2 (← stripLead? [':'] s)
  let (second, s) ← match s with
    | ':' :: rest => do
      let (second, s) ← digitRun? 2 rest
      some (second, ← afterFraction? s)
    | s => some (0, s)
  let _ ← TimeOfDay.of? hour minute second 0
  return s

/-- What follows an offset from UTC, which may be missing. -/
def afterOffset? : List Char → Option (List Char)
  | [] => some []
  | c :: rest =>
    if c == 'Z' || c == 'z' then some rest
    else if isSign c then do
      let (hours, s) ← digitRun? 2 rest
      let (minutes, s) ← digitRun? 2 (← stripLead? [':'] s)
      if hours < 24 ∧ minutes < 60 then some s else none
    else none

def isDate (s : List Char) : Bool := afterDate? s == some []

/-- Whether a text is a date, a time, or a date with a time and an optional offset. -/
def isMoment (s : List Char) : Bool :=
  afterTime? s == some [] ||
    match afterDate? s with
    | some [] => true
    | some (c :: rest) =>
      (c == 'T' || c == 't' || c == ' ') && (afterTime? rest >>= afterOffset?) == some []
    | none => false

/-- Removes underscores, each of which has to stand between two digits. -/
def stripUnderscores? (isDigit : Char → Bool) : List Char → Option (List Char)
  | [] => some []
  | '_' :: _ => none
  | c :: '_' :: d :: rest =>
    if isDigit c && isDigit d then (stripUnderscores? isDigit (d :: rest)).map (c :: ·)
    else none
  | c :: rest => (stripUnderscores? isDigit rest).map (c :: ·)

/-- Integers have 128 bits, signed or unsigned. -/
def integer? (i : Int) : Option Value :=
  if int128Min ≤ i ∧ i ≤ uint128Max then some (.integer i) else none

def inBase? (base : Nat) (digits : List Char) : Option Value := do
  let plain ← stripUnderscores? (fun c => (hexValue? c).any (· < base)) digits
  let values ← plain.mapM hexValue?
  if values.isEmpty || values.any (base ≤ ·) then none
  else integer? (values.foldl (fun n d => base * n + d) 0 : Nat)

def hasLeadingZero (whole : List Char) : Bool :=
  whole.head? == some '0' && whole.length != 1

/-- A number of base ten. Floating numbers beyond the finite range are no values. -/
def decimal? (run : List Char) : Option Value := do
  let plain ← stripUnderscores? Char.isDigit run
  match Numeral.scan plain with
  | some (n, []) =>
    if n.whole.isEmpty || hasLeadingZero n.whole || n.fraction == some [] then none
    else if n.fraction.isNone && n.exponent.isNone then
      let magnitude : Int := digitsValue n.whole
      integer? (if n.sign = some '-' then -magnitude else magnitude)
    else
      match n.value with
      | .finite f => some (.float (.finite f))
      | _ => none
  | _ => none

/-- Infinities and NaN, which have no other text than their names. -/
def named? (run : List Char) : Option Value :=
  match (scanSign run).1, String.ofList (scanSign run).2 with
  | some '-', "inf" => some (.float (.infinite true))
  | _, "inf" => some (.float (.infinite false))
  | _, "nan" => some (.float .nan)
  | _, _ => none

def bare? (run : List Char) : Option Value :=
  match run with
  | '0' :: 'x' :: digits => inBase? 16 digits
  | '0' :: 'o' :: digits => inBase? 8 digits
  | '0' :: 'b' :: digits => inBase? 2 digits
  | _ =>
    if run = "true".toList then some (.boolean true)
    else if run = "false".toList then some (.boolean false)
    else if isMoment run then some (.moment (String.ofList run))
    else (named? run).orElse fun _ => decimal? run

/-- The characters that a value without quotes may run over. -/
def isBareChar (c : Char) : Bool := !"=,[]\x7b\x7d \t#\r\n".toList.contains c

/-- A value without quotes and what follows it. One space may stand between a date and its
time. -/
def scalar? (s : List Char) : Option (Value × List Char) :=
  let run := s.takeWhile isBareChar
  match s.dropWhile isBareChar with
  | ' ' :: c :: rest =>
    if isDate run && c.isDigit then
      (bare? (run ++ ' ' :: (c :: rest).takeWhile isBareChar)).map fun v =>
        (v, (c :: rest).dropWhile isBareChar)
    else (bare? run).map fun v => (v, ' ' :: c :: rest)
  | rest => (bare? run).map fun v => (v, rest)

end RowShape.Toml
