import RowShape.Proofs.LetterCase
import RowShape.Proofs.Numerals

/-!
Floating numbers from texts as a whole, which hold a name or a numeral and nothing else. The
text of a numeral is one of them, and is read as the value of the numeral.
-/

namespace RowShape

namespace Double

/-- The power of ten that is written behind a mark; none is written in an empty text. -/
def powerOf? : List Char → Option Int
  | [] => some 0
  | _ :: cs =>
    let (sign, digits) := scanSign cs
    if digits.isEmpty || !digits.all Char.isDigit then none
    else some (if sign = some '-' then -(digitsValue digits : Int) else digitsValue digits)

/-- The number that a text is as a whole: the name of infinity or NaN in any case, or a decimal
numeral, which stands for the nearest number. -/
def ofText? (s : List Char) : Option Double :=
  let (sign, unsigned) := scanSign s
  let negative := sign == some '-'
  let name := foldCase unsigned
  if name = "inf".toList ∨ name = "infinity".toList then some (.infinite negative)
  else if name = "nan".toList then some .nan
  else
    let mantissa := unsigned.takeWhile (!isMark ·)
    let whole := mantissa.takeWhile (· != '.')
    let fraction := (mantissa.dropWhile (· != '.')).tail
    if (whole ++ fraction).isEmpty || !(whole ++ fraction).all Char.isDigit then none
    else (powerOf? (unsigned.dropWhile (!isMark ·))).map fun power =>
      ofDecimal negative (digitsValue (whole ++ fraction)) (power - fraction.length)

end Double

theorem isDigit_of_isAlpha {c : Char} (h : c.isAlpha = true) : c.isDigit = false := by
  have hrange := isAlpha_iff.mp h
  rw [Bool.eq_false_iff]
  intro hdigit
  have hhigh : c.toNat ≤ 57 := (Char.isDigit_iff_toNat.mp hdigit).2
  omega

/-- No number starts with a letter, in whatever case. -/
theorem StartsNumber.foldCase_ne {s : List Char} (h : StartsNumber s) {c : Char}
    (hc : c.isAlpha = true) (cs : List Char) : foldCase s ≠ c :: cs := by
  have hletter : ∀ c : Char, c.isAlpha = true → (c.isDigit || c == '.') = false := by
    intro c hc
    rw [isDigit_of_isAlpha hc, Bool.false_or, beq_eq_false_iff_ne]
    rintro rfl
    cases hc
  intro heq
  obtain ⟨d, ds, rfl, hd⟩ := h
  have hstart : (d.isDigit || d == '.') = true := by rwa [Bool.or_eq_true, beq_iff_eq]
  have hsame : (d.toLower.isDigit || d.toLower == '.') = (d.isDigit || d == '.') :=
    congrFun (comp_toLower hletter) d
  rw [(List.cons.inj heq).1, hletter c hc, hstart] at hsame
  cases hsame

theorem isMark_eq_false {c : Char} (h : c.isDigit = true ∨ c = '.') : isMark c = false := by
  cases h with
  | inl h =>
      simp only [isMark, Bool.or_eq_false_iff, beq_eq_false_iff_ne]
      constructor <;> rintro rfl <;> cases h
  | inr h => rw [h]; rfl

namespace Numeral.WellFormed

variable {n : Numeral}

theorem mem_mantissa (h : n.WellFormed) : ∀ c ∈ n.mantissa, c.isDigit = true ∨ c = '.' := by
  intro c hc
  rw [mantissa, List.mem_append] at hc
  cases hc with
  | inl hc => exact .inl (h.whole c hc)
  | inr hc =>
      cases hfraction : n.fraction with
      | none =>
          rw [hfraction] at hc
          cases hc
      | some digits =>
          rw [hfraction] at hc
          cases hc with
          | head => exact .inr rfl
          | tail _ hc => exact .inl (h.fraction digits hfraction c hc)

/-- The mantissa ends in front of the mark, and its whole part in front of the point. -/
theorem mantissa_parts (h : n.WellFormed) :
    n.mantissa.takeWhile (· != '.') = n.whole ∧
      (n.mantissa.dropWhile (· != '.')).tail = n.fraction.getD [] := by
  have hwhole : ∀ c ∈ n.whole, (c != '.') = true := by
    intro c hc
    rw [bne_iff_ne]
    rintro rfl
    cases h.whole _ hc
  have hpoint : ∀ c, (n.fraction.elim [] ('.' :: ·)).head? = some c → (c != '.') = false := by
    intro c hc
    cases hfraction : n.fraction with
    | none => rw [hfraction] at hc; cases hc
    | some _ => rw [hfraction] at hc; cases hc; rfl
  rw [mantissa, takeWhile_run hwhole hpoint, dropWhile_run hwhole hpoint]
  exact ⟨rfl, by cases n.fraction <;> rfl⟩

theorem powerOf?_exponent (h : n.WellFormed) :
    Double.powerOf? (n.exponent.elim [] Exponent.text) =
      some (match n.exponent with | some e => e.value | none => 0) := by
  cases hexponent : n.exponent with
  | none => rfl
  | some e =>
      have he := h.exponent e hexponent
      have hstarts := he.digits.startsNumber []
      rw [List.append_nil] at hstarts
      have hscan := scanSign_toList e.sign he.sign hstarts
      have hall : e.digits.all Char.isDigit = true := List.all_eq_true.mpr he.digits.2
      simp only [Option.elim_some, Exponent.text, List.cons_append, Double.powerOf?, hscan, hall,
        List.isEmpty_eq_false_iff.mpr he.digits.1, Bool.not_true, Bool.or_false,
        Bool.false_eq_true, if_false, Exponent.value]

/-- The text of a numeral is read as a whole, with the value of the numeral. -/
theorem ofText?_text (h : n.WellFormed) : Double.ofText? n.text = some n.value := by
  have hstarts := h.isMantissa.startsNumber (n.exponent.elim [] Exponent.text)
  have hmantissa : ∀ c ∈ n.mantissa, (!isMark c) = true := by
    intro c hc
    rw [isMark_eq_false (h.mem_mantissa c hc)]
    rfl
  have hmark : ∀ c, (n.exponent.elim [] Exponent.text).head? = some c → (!isMark c) = false := by
    intro c hc
    cases hexponent : n.exponent with
    | none => rw [hexponent] at hc; cases hc
    | some e =>
        rw [hexponent] at hc
        cases hc
        rw [(h.exponent e hexponent).mark]
        rfl
  have hinf : foldCase _ ≠ "inf".toList := hstarts.foldCase_ne rfl _
  have hinfinity : foldCase _ ≠ "infinity".toList := hstarts.foldCase_ne rfl _
  have hnan : foldCase _ ≠ "nan".toList := hstarts.foldCase_ne rfl _
  have hall : (n.whole ++ n.fraction.getD []).all Char.isDigit = true := by
    rw [List.all_append, List.all_eq_true.mpr h.whole, Bool.true_and]
    cases hfraction : n.fraction with
    | none => rfl
    | some digits => exact List.all_eq_true.mpr (h.fraction digits hfraction)
  simp only [Double.ofText?, text_eq, scanSign_toList n.sign h.sign hstarts, hinf, hinfinity, hnan,
    takeWhile_run hmantissa hmark, dropWhile_run hmantissa hmark, h.mantissa_parts.1,
    h.mantissa_parts.2, List.isEmpty_eq_false_iff.mpr h.digits, hall, h.powerOf?_exponent,
    or_self, if_false, Bool.not_true, Bool.false_or, Bool.false_eq_true, Option.map_some]
  rfl

end Numeral.WellFormed

end RowShape
