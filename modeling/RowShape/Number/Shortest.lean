import RowShape.Number.Decimal
import RowShape.Number.Double

/-!
The fewest decimal digits that read back as a given binary64 number, and among
those the ones nearest to it. Only the choice between two equally near digit
strings is left open, as a `Tie`.
-/

namespace RowShape

/-- Which of two equally near digit strings is taken. -/
inductive Tie where
  | toEven
  | up
deriving DecidableEq, Repr

/-- The value `digits * 10 ^ exponent`. -/
structure Scientific where
  digits : Nat
  exponent : Int
deriving DecidableEq, Repr

def decimalLength (n : Nat) : Nat := (natText n).length

/-- The exponent of the leading decimal digit of `num / den`, both positive. -/
def decimalOrder (num den : Nat) : Int :=
  if den ≤ num then (decimalLength (num / den) : Int) - 1
  else -(decimalLength ((den + num - 1) / num - 1) : Int)

namespace Finite

/-- The reals that round to a number: its value and the ends, over one denominator. -/
structure Interval where
  low : Nat
  value : Nat
  high : Nat
  den : Nat
  closed : Bool

/-- Below a power of two the neighbour is half as far away; ends belong to even codes. -/
def interval (f : Finite) : Interval :=
  let below := if f.code % binade = 0 ∧ binade < f.code then 1 else 2
  let up := Nat.pow 2 f.exponent.toNat
  { low := (4 * f.significand - below) * up
    value := 4 * f.significand * up
    high := (4 * f.significand + 2) * up
    den := 4 * Nat.pow 2 (-f.exponent).toNat
    closed := f.code % 2 == 0 }

namespace Interval

def contains (r : Interval) (num den : Nat) : Bool :=
  if r.closed then r.low * den ≤ num * r.den && num * r.den ≤ r.high * den
  else r.low * den < num * r.den && num * r.den < r.high * den

/-- The grid point of spacing `10 ^ x` nearest to the value among its two neighbours
that lie in the interval, in units of the spacing. -/
def nearestOnGrid (tie : Tie) (r : Interval) (x : Int) : Option Nat :=
  let up := Nat.pow 10 x.toNat
  let down := Nat.pow 10 (-x).toNat
  let q := r.value * down / (r.den * up)
  let rest := r.value * down % (r.den * up)
  let lower := r.contains (q * up) down
  let upper := r.contains ((q + 1) * up) down
  if rest = 0 then some q
  else if lower && upper then
    if 2 * rest < r.den * up then some q
    else if r.den * up < 2 * rest then some (q + 1)
    else match tie with
      | .toEven => some (q + q % 2)
      | .up => some (q + 1)
  else if lower then some q
  else if upper then some (q + 1)
  else none

/-- Tries grids of more and more digits. A value just below a power of ten may meet that
power on the first grid, which then has one digit and not two. -/
def search (tie : Tie) (r : Interval) (order : Int) : Nat → Nat → Scientific
  | 0, n => ⟨r.value / r.den, n⟩
  | fuel + 1, n =>
    let x := order - n
    match r.nearestOnGrid tie x with
    | some d => if d = 10 then ⟨1, x + 1⟩ else ⟨d, x⟩
    | none => search tie r order fuel (n + 1)

end Interval

/-- The shortest digits of the magnitude; seventeen are always enough. -/
def shortest (tie : Tie) (f : Finite) : Scientific :=
  if f.code = 0 then ⟨0, 0⟩
  else f.interval.search tie (decimalOrder f.interval.value f.interval.den) 17 0

end Finite

end RowShape
