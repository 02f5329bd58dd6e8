import RowShape.Number.Double

/-!
Decimal numerals in text: an optional sign, digits with an optional point, and
an optional exponent. A numeral keeps its parts as written, so that `text` gives
back the characters it was scanned from.
-/

namespace RowShape

def isSign (c : Char) : Bool := c == '+' || c == '-'

def digitsValue (digits : List Char) : Nat :=
  digits.foldl (fun n c => 10 * n + (c.toNat - '0'.toNat)) 0

def hexValue? (c : Char) : Option Nat :=
  if '0' ≤ c ∧ c ≤ '9' then some (c.toNat - '0'.toNat)
  else if 'a' ≤ c ∧ c ≤ 'f' then some (c.toNat - 'a'.toNat + 10)
  else if 'A' ≤ c ∧ c ≤ 'F' then some (c.toNat - 'A'.toNat + 10)
  else none

def scanSign : List Char → Option Char × List Char
  | c :: cs => if isSign c then (some c, cs) else (none, c :: cs)
  | [] => (none, [])

/-- A signed whole text in 64 bits: an optional sign and at least one digit. -/
def readInt64? (s : List Char) : Option Int :=
  let (sign, digits) := scanSign s
  if digits.isEmpty || !digits.all Char.isDigit then none
  else
    let n : Int := digitsValue digits
    let i := if sign = some '-' then -n else n
    if int64Min ≤ i ∧ i ≤ int64Max then some i else none

theorem scanSign_text (s : List Char) : (scanSign s).1.toList ++ (scanSign s).2 = s := by
  cases s with
  | nil => rfl
  | cons c cs => simp only [scanSign]; split <;> rfl

structure Exponent where
  mark : Char
  sign : Option Char
  digits : List Char
deriving DecidableEq, Repr

structure Numeral where
  sign : Option Char
  whole : List Char
  fraction : Option (List Char)
  exponent : Option Exponent
deriving DecidableEq, Repr

namespace Exponent

def text (e : Exponent) : List Char := e.mark :: e.sign.toList ++ e.digits

def value (e : Exponent) : Int :=
  if e.sign = some '-' then -(digitsValue e.digits : Int) else digitsValue e.digits

/-- The exponent at the start of a text. A mark without digits after it is none. -/
def scan : List Char → Option Exponent × List Char
  | c :: cs =>
    if c == 'e' || c == 'E' then
      let (sign, rest) := scanSign cs
      match rest.takeWhile Char.isDigit with
      | [] => (none, c :: cs)
      | digits => (some ⟨c, sign, digits⟩, rest.dropWhile Char.isDigit)
    else (none, c :: cs)
  | [] => (none, [])

theorem scan_text (s : List Char) : (scan s).1.elim [] text ++ (scan s).2 = s := by
  cases s with
  | nil => rfl
  | cons c cs =>
      rw [scan]
      split
      · dsimp only
        split
        · rfl
        · simp [text, scanSign_text]
      · rfl

end Exponent

/-- The point and the digits after it. A point needs a digit on one of its sides. -/
def scanFraction (whole : List Char) : List Char → Option (List Char) × List Char
  | '.' :: cs =>
    let digits := cs.takeWhile Char.isDigit
    if whole.isEmpty && digits.isEmpty then (none, '.' :: cs)
    else (some digits, cs.dropWhile Char.isDigit)
  | cs => (none, cs)

theorem scanFraction_text (whole s : List Char) :
    (scanFraction whole s).1.elim [] ('.' :: ·) ++ (scanFraction whole s).2 = s := by
  unfold scanFraction
  split
  · dsimp only
    split
    · rfl
    · simp
  · rfl

namespace Numeral

def text (n : Numeral) : List Char :=
  n.sign.toList ++ n.whole ++ n.fraction.elim [] ('.' :: ·) ++ n.exponent.elim [] Exponent.text

def scan (s : List Char) : Option (Numeral × List Char) :=
  let (sign, unsigned) := scanSign s
  let whole := unsigned.takeWhile Char.isDigit
  let (fraction, afterPoint) := scanFraction whole (unsigned.dropWhile Char.isDigit)
  if whole.isEmpty && fraction.isNone then none
  else
    let (exponent, rest) := Exponent.scan afterPoint
    some (⟨sign, whole, fraction, exponent⟩, rest)

/-- A numeral is a part of the text it was scanned from. -/
theorem text_of_scan {s rest : List Char} {n : Numeral} (h : scan s = some (n, rest)) :
    n.text ++ rest = s := by
  simp only [scan] at h
  split at h
  · simp at h
  · obtain ⟨rfl, rfl⟩ := by simpa using h
    simp only [text, List.append_assoc, Exponent.scan_text, scanFraction_text,
      List.takeWhile_append_dropWhile, scanSign_text]

def value (n : Numeral) : Double :=
  let fraction := n.fraction.getD []
  let exponent := match n.exponent with | some e => e.value | none => 0
  Double.ofDecimal (n.sign == some '-') (digitsValue (n.whole ++ fraction))
    (exponent - fraction.length)

end Numeral

/-- The number at the start of a text, zero when there is none. -/
def leadingNumber (s : List Char) : Double :=
  match Numeral.scan s with
  | some (n, _) => n.value
  | none => .finite (.zero false)

end RowShape
