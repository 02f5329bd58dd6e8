import Mathlib.Algebra.Group.Nat.Defs
import RowShape.Number.Decimal
import RowShape.Number.Numeral

/-!
Decimal digits read back. The digits of a number have its value, without zeros in front, and
zeros put in front of them do not change it.
-/

namespace RowShape

def AllDigits (s : List Char) : Prop := ∀ c ∈ s, c.isDigit = true

theorem isSign_of_isDigit {c : Char} (h : c.isDigit = true) : isSign c = false := by
  simp only [isSign, Bool.or_eq_false_iff, beq_eq_false_iff_ne]
  constructor <;> rintro rfl <;> cases h

theorem digitsValue_eq_ofDigitChars (s : List Char) : digitsValue s = Nat.ofDigitChars 10 s 0 :=
  Nat.ofDigitChars_eq_foldl.symm

theorem digitsValue_natText (n : Nat) : digitsValue (natText n) = n := by
  rw [digitsValue_eq_ofDigitChars, natText, Nat.ofDigitChars_ten_toDigits]

theorem allDigits_natText (n : Nat) : AllDigits (natText n) :=
  fun _ => Nat.isDigit_of_mem_toDigits (by decide) (by decide)

theorem natText_ne_nil (n : Nat) : natText n ≠ [] := Nat.toDigits_ne_nil

/-- Only the number zero is written with a zero in front. -/
theorem head?_natText {n : Nat} (hn : 0 < n) : (natText n).head? ≠ some '0' := by
  induction n using Nat.strongRecOn with
  | ind n ih =>
      rw [natText, Nat.toDigits_eq_if (by decide)]
      split
      · simp [Nat.pos_iff_ne_zero.mp hn]
      · have hrest := ih (n / 10) (by omega) (by omega)
        change (natText (n / 10) ++ _).head? ≠ some '0'
        cases hdigits : natText (n / 10) with
        | nil => exact absurd hdigits (natText_ne_nil (n / 10))
        | cons d ds =>
            rw [hdigits] at hrest
            exact hrest

theorem length_natText {n : Nat} (hn : n < 10) : (natText n).length = 1 := by
  rw [natText, Nat.toDigits_of_lt_base hn, List.length_singleton]

theorem length_paddedText {width n : Nat} (hwidth : 0 < width) (hn : n < 10 ^ width) :
    (paddedText width n).length = width := by
  have hlength : (natText n).length ≤ width :=
    (Nat.length_toDigits_le_iff (by decide) hwidth).mpr hn
  rw [paddedText, List.length_append, List.length_replicate, Nat.sub_add_cancel hlength]

theorem allDigits_paddedText (width n : Nat) : AllDigits (paddedText width n) := by
  intro c hc
  rcases List.mem_append.mp hc with hzero | hdigit
  · rw [List.eq_of_mem_replicate hzero]
    rfl
  · exact allDigits_natText n c hdigit

theorem paddedText_ne_nil (width n : Nat) : paddedText width n ≠ [] :=
  fun h => natText_ne_nil n (List.append_eq_nil_iff.mp h).2

theorem digitsValue_paddedText (width n : Nat) : digitsValue (paddedText width n) = n := by
  rw [digitsValue_eq_ofDigitChars, paddedText, Nat.ofDigitChars_append,
    Nat.ofDigitChars_replicate_zero, Nat.mul_zero, ← digitsValue_eq_ofDigitChars,
    digitsValue_natText]

section Runs

variable {p : Char → Bool} {s rest : List Char}

/-- A run of characters ends in front of one that is not of their kind. -/
theorem takeWhile_run (hs : ∀ c ∈ s, p c = true) (hrest : ∀ c, rest.head? = some c → p c = false) :
    (s ++ rest).takeWhile p = s := by
  have hstop : rest.takeWhile p = [] := by
    cases rest with
    | nil => rfl
    | cons c cs => simp [hrest c rfl]
  rw [List.takeWhile_append_of_pos hs, hstop, List.append_nil]

theorem dropWhile_run (hs : ∀ c ∈ s, p c = true) (hrest : ∀ c, rest.head? = some c → p c = false) :
    (s ++ rest).dropWhile p = rest := by
  have hparts := List.takeWhile_append_dropWhile (p := p) (l := s ++ rest)
  rw [takeWhile_run hs hrest] at hparts
  exact List.append_cancel_left hparts

end Runs

/-- A text at which a run of digits ends. -/
def NoDigitNext (s : List Char) : Prop := ∀ c, s.head? = some c → c.isDigit = false

theorem AllDigits.takeWhile_append {s rest : List Char} (hs : AllDigits s) (h : NoDigitNext rest) :
    (s ++ rest).takeWhile Char.isDigit = s := takeWhile_run hs h

theorem AllDigits.dropWhile_append {s rest : List Char} (hs : AllDigits s) (h : NoDigitNext rest) :
    (s ++ rest).dropWhile Char.isDigit = rest := dropWhile_run hs h

end RowShape
