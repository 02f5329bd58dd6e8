import RowShape.Number.Bounds

/-!
Binary64 numbers as exact data. A finite number is a sign and a magnitude code,
and codes are ordered as the magnitudes they stand for; rounding a fraction to a
code is nearest, ties to even. No machine arithmetic is involved.
-/

namespace RowShape

/-- How many codes share an exponent: two to the 52. -/
def binade : Nat := 4503599627370496

/-- A finite binary64 number, by its sign and the 63 bits below the sign bit. -/
structure Finite where
  negative : Bool
  code : Nat
  code_lt : code < 2047 * binade
deriving DecidableEq, Repr

inductive Double where
  | finite (f : Finite)
  | infinite (negative : Bool)
  | nan
deriving DecidableEq, Repr

/-- The whole number nearest to `num / den`; halfway cases go to the even one. -/
def nearestEven (num den : Nat) : Nat :=
  let q := num / den
  let r := num % den
  if 2 * r < den then q
  else if den < 2 * r then q + 1
  else q + q % 2

namespace Finite

def zero (negative : Bool) : Finite := ⟨negative, 0, by decide⟩

def isZero (f : Finite) : Bool := f.code == 0

/-- The magnitude is `significand * 2 ^ exponent`. -/
def significand (f : Finite) : Nat :=
  if f.code < binade then f.code else binade + f.code % binade

def exponent (f : Finite) : Int :=
  (max (f.code / binade) 1 : Nat) - 1075

/-- A whole number that orders finite numbers as their values; both zeros give 0. -/
def rank (f : Finite) : Int :=
  if f.negative then -(f.code : Int) else f.code

/-- The value as a fraction of natural numbers, sign aside. -/
def ratio (f : Finite) : Nat × Nat :=
  if 0 ≤ f.exponent then (f.significand * Nat.pow 2 f.exponent.toNat, 1)
  else (f.significand, Nat.pow 2 (-f.exponent).toNat)

def truncate (f : Finite) : Int :=
  let whole : Int := (f.ratio.1 / f.ratio.2 : Nat)
  if f.negative then -whole else whole

def compareInt (i : Int) (f : Finite) : Ordering :=
  let num : Int := if f.negative then -(f.ratio.1 : Int) else f.ratio.1
  compare (i * f.ratio.2) num

end Finite

namespace Double

/-- The power of two at or below `num / den`, for positive `num` and `den`. -/
def binaryOrder (num den : Nat) : Int :=
  let k : Int := (num.log2 : Int) - den.log2
  if num * Nat.pow 2 (-k).toNat < den * Nat.pow 2 k.toNat then k - 1 else k

/-- The binary64 number nearest to `num / den`, ties to even. -/
def ofRatio (negative : Bool) (num den : Nat) : Double :=
  if num = 0 then .finite (.zero negative)
  else
    let e := max (-1074) (binaryOrder num den - 52)
    let m := nearestEven (num * Nat.pow 2 (-e).toNat) (den * Nat.pow 2 e.toNat)
    let code := (e + 1074).toNat * binade + m
    if h : code < 2047 * binade then .finite ⟨negative, code, h⟩ else .infinite negative

def ofInt (i : Int) : Double := ofRatio (decide (i < 0)) i.natAbs 1

/-- The number nearest to `digits * 10 ^ exponent`. Exponents that no digit string of
this length can bring back into range are settled without computing the power. -/
def ofDecimal (negative : Bool) (digits : Nat) (exponent : Int) : Double :=
  if digits = 0 then .finite (.zero negative)
  else if 400 < exponent then .infinite negative
  else if exponent < -((digits.log2 : Int) + 401) then .finite (.zero negative)
  else ofRatio negative (digits * Nat.pow 10 exponent.toNat) (Nat.pow 10 (-exponent).toNat)

/-- The value without its fraction, clamped to signed 64 bits; NaN gives 0. -/
def toInt64 : Double → Int
  | .finite f => max int64Min (min int64Max f.truncate)
  | .infinite true => int64Min
  | .infinite false => int64Max
  | .nan => 0

end Double

end RowShape
