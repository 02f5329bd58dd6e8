import RowShape.Number.Decimal
import RowShape.Number.Shortest

/-!
The text of a number. A `FloatLayout` holds the decisions a format makes: which
leading exponents are written positionally, whether a whole number keeps `.0`,
and how ties between digit strings go.
-/

namespace RowShape

structure FloatLayout where
  /-- Least and greatest leading exponents written positionally; all of them without bounds. -/
  positional : Option (Int × Int)
  /-- Whether whole numbers are written with `.0`. -/
  wholeMark : Bool
  tie : Tie

namespace FloatLayout

/-- Digits with the point after the digit of weight one. -/
def fixed (layout : FloatLayout) (digits : List Char) (leading : Int) : List Char :=
  if leading < 0 then
    '0' :: '.' :: List.replicate (-leading - 1).toNat '0' ++ digits
  else
    let whole := leading.toNat + 1
    if digits.length ≤ whole then
      digits ++ List.replicate (whole - digits.length) '0'
        ++ (if layout.wholeMark then ['.', '0'] else [])
    else digits.take whole ++ '.' :: digits.drop whole

/-- One digit before the point and a signed power of ten. -/
def scientific (digits : List Char) (leading : Int) : List Char :=
  let mantissa := match digits with
    | d :: e :: rest => d :: '.' :: e :: rest
    | short => short
  mantissa ++ 'e' :: (if leading < 0 then [] else ['+']) ++ intText leading

def magnitude (layout : FloatLayout) (f : Finite) : List Char :=
  let s := f.shortest layout.tie
  let digits := natText s.digits
  let leading : Int := s.exponent + digits.length - 1
  match layout.positional with
  | none => layout.fixed digits leading
  | some (low, high) =>
    if low ≤ leading ∧ leading ≤ high then layout.fixed digits leading
    else scientific digits leading

def finite (layout : FloatLayout) (f : Finite) : List Char :=
  if f.negative then '-' :: layout.magnitude f else layout.magnitude f

end FloatLayout

end RowShape
