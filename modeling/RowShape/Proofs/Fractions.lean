import Mathlib.Data.List.Induction
import RowShape.Proofs.Digits
import RowShape.Time.Reading

/-!
The fractions of a second. Up to nine digits are read as nanoseconds, and nanoseconds are
written with the fewest of no, three, six or nine digits that keep the fraction exact.
-/

namespace RowShape

theorem digitsValue_append_digit (s : List Char) (c : Char) :
    digitsValue (s ++ [c]) = 10 * digitsValue s + (c.toNat - '0'.toNat) := by
  rw [digitsValue, List.foldl_append]
  rfl

theorem isDigit_toNat_sub_lt {c : Char} (h : c.isDigit = true) : c.toNat - '0'.toNat < 10 := by
  have hhigh : c.toNat ≤ 57 := (Char.isDigit_iff_toNat.mp h).2
  have hzero : '0'.toNat = 48 := rfl
  omega

theorem digitsValue_lt {digits : List Char} (h : AllDigits digits) :
    digitsValue digits < 10 ^ digits.length := by
  induction digits using List.reverseRecOn with
  | nil => decide
  | append_singleton s c ih =>
      have hs : AllDigits s := fun d hd => h d (List.mem_append_left [c] hd)
      have hc := isDigit_toNat_sub_lt (h c (List.mem_append_right s (List.mem_singleton_self c)))
      have hvalue := ih hs
      rw [digitsValue_append_digit, List.length_append, List.length_singleton, Nat.pow_succ]
      omega

/-- The digits of a fraction behind a point, and nothing without digits. -/
def pointed (digits : List Char) : List Char := if digits = [] then [] else '.' :: digits

theorem pointed_paddedText (width n : Nat) :
    pointed (paddedText width n) = '.' :: paddedText width n := if_neg (paddedText_ne_nil width n)

/-- The value of a fraction in nanoseconds, of which nine digits are the smallest. -/
def nanosOf (digits : List Char) : Nat := digitsValue digits * 10 ^ (9 - digits.length)

/-- Digits behind the point that stand for the same fraction, however many there are. -/
def SameFraction (s t : List Char) : Prop :=
  digitsValue s * 10 ^ t.length = digitsValue t * 10 ^ s.length

/-- The digits of a fraction in the fewest of no, three, six or nine digits that keep it. -/
structure FewestDigits (digits written : List Char) : Prop where
  allDigits : AllDigits written
  length : written.length ∈ [0, 3, 6, 9]
  exact : SameFraction digits written
  fewest : ∀ other, AllDigits other → other.length ∈ [0, 3, 6, 9] → SameFraction digits other →
    written.length ≤ other.length

theorem sameFraction_iff {s t : List Char} (hs : s.length ≤ 9) (ht : t.length ≤ 9) :
    SameFraction s t ↔ nanosOf s = nanosOf t := by
  have hscale (u : List Char) (hu : u.length ≤ 9) :
      nanosOf u * 10 ^ u.length = digitsValue u * 10 ^ 9 := by
    rw [nanosOf, Nat.mul_assoc, ← Nat.pow_add, Nat.sub_add_cancel hu]
  have hpos (n : Nat) : 0 < 10 ^ n := Nat.pow_pos (by decide)
  constructor
  · intro h
    apply Nat.eq_of_mul_eq_mul_right (hpos (s.length + t.length))
    calc nanosOf s * 10 ^ (s.length + t.length)
        = nanosOf s * 10 ^ s.length * 10 ^ t.length := by rw [Nat.pow_add, Nat.mul_assoc]
      _ = digitsValue s * 10 ^ t.length * 10 ^ 9 := by rw [hscale s hs, Nat.mul_right_comm]
      _ = digitsValue t * 10 ^ s.length * 10 ^ 9 := by rw [h]
      _ = nanosOf t * 10 ^ t.length * 10 ^ s.length := by rw [hscale t ht, Nat.mul_right_comm]
      _ = nanosOf t * 10 ^ (s.length + t.length) := by
          rw [Nat.mul_assoc, ← Nat.pow_add, Nat.add_comm]
  · intro h
    apply Nat.eq_of_mul_eq_mul_right (hpos 9)
    calc digitsValue s * 10 ^ t.length * 10 ^ 9
        = nanosOf s * 10 ^ s.length * 10 ^ t.length := by rw [hscale s hs, Nat.mul_right_comm]
      _ = nanosOf t * 10 ^ t.length * 10 ^ s.length := by rw [h, Nat.mul_right_comm]
      _ = digitsValue t * 10 ^ s.length * 10 ^ 9 := by rw [hscale t ht, Nat.mul_right_comm]

theorem nanosOf_lt {digits : List Char} (h : AllDigits digits) (hlength : digits.length ≤ 9) :
    nanosOf digits < 1000000000 := by
  calc nanosOf digits
      < 10 ^ digits.length * 10 ^ (9 - digits.length) :=
        Nat.mul_lt_mul_of_pos_right (digitsValue_lt h) (Nat.pow_pos (by decide))
    _ = 1000000000 := by rw [← Nat.pow_add, Nat.add_sub_cancel' hlength]

/-- Nanoseconds are a multiple of what one of the last digits is worth. -/
theorem nanosOf_mod {digits : List Char} {n : Nat} (h : digits.length = n) :
    nanosOf digits % 10 ^ (9 - n) = 0 := by
  rw [nanosOf, h, Nat.mul_mod_left]

theorem readFraction?_pointed {digits : List Char} (h : AllDigits digits)
    (hlength : digits.length ≤ 9) {rest : List Char} (hdigit : NoDigitNext rest)
    (hpoint : rest.head? ≠ some '.') :
    readFraction? (pointed digits ++ rest) = some (nanosOf digits, rest) := by
  by_cases hnone : digits = []
  · subst hnone
    cases rest with
    | nil => rfl
    | cons c cs =>
        have hc : c ≠ '.' := fun heq => hpoint (congrArg some heq)
        simp [pointed, readFraction?, nanosOf, digitsValue, hc]
  · have hkept : digits.take 9 = digits := List.take_of_length_le hlength
    rw [pointed, if_neg hnone, List.cons_append]
    simp only [readFraction?]
    rw [h.takeWhile_append hdigit, h.dropWhile_append hdigit]
    split
    · exact absurd rfl hnone
    · rw [hkept]
      rfl

/-- What is written for some nanoseconds, in as few digits as they need. -/
theorem fewestDigits_paddedText {digits : List Char} (h : AllDigits digits)
    (hlength : digits.length ≤ 9) (width n : Nat) (hpos : 0 < width)
    (hwidth : width ∈ [0, 3, 6, 9]) (hn : n < 10 ^ width)
    (hnanos : nanosOf digits = n * 10 ^ (9 - width)) (hzero : nanosOf digits ≠ 0)
    (hmilli : 3 < width → nanosOf digits % 1000000 ≠ 0)
    (hmicro : 6 < width → nanosOf digits % 1000 ≠ 0) :
    FewestDigits digits (paddedText width n) := by
  have hnine {k : Nat} (hk : k ∈ [0, 3, 6, 9]) : k ≤ 9 := by
    simp only [List.mem_cons, List.not_mem_nil, or_false] at hk
    omega
  have hwritten : (paddedText width n).length = width := length_paddedText hpos hn
  refine ⟨allDigits_paddedText width n, by rwa [hwritten], ?_, ?_⟩
  · rw [sameFraction_iff hlength (hwritten.symm ▸ hnine hwidth), hnanos, nanosOf, hwritten,
      digitsValue_paddedText]
  · intro other _ hother hsame
    rw [sameFraction_iff hlength (hnine hother)] at hsame
    have hlt := nanosOf_lt h hlength
    rw [hwritten]
    simp only [List.mem_cons, List.not_mem_nil, or_false] at hother hwidth
    -- each number of digits that would be fewer leaves something of the fraction out
    rcases hother with hother | hother | hother | hother
    · have hmod : nanosOf other % 1000000000 = 0 := nanosOf_mod hother
      omega
    · have hmod : nanosOf other % 1000000 = 0 := nanosOf_mod hother
      omega
    · have hmod : nanosOf other % 1000 = 0 := nanosOf_mod hother
      omega
    · omega

/-- The text of a fraction has the fewest digits, behind a point if there are any. -/
theorem exists_fewestDigits {digits : List Char} (h : AllDigits digits)
    (hlength : digits.length ≤ 9) :
    ∃ written, FewestDigits digits written ∧
      TimeOfDay.fractionText (nanosOf digits) = pointed written := by
  have hlt := nanosOf_lt h hlength
  by_cases hzero : nanosOf digits = 0
  · refine ⟨[], ⟨fun _ hc => absurd hc List.not_mem_nil, List.mem_cons_self, ?_, ?_⟩, ?_⟩
    · rw [sameFraction_iff hlength (by decide), hzero]
      rfl
    · exact fun _ _ _ _ => Nat.zero_le _
    · rw [hzero]
      rfl
  by_cases hmilli : nanosOf digits % 1000000 = 0
  · refine ⟨_, fewestDigits_paddedText h hlength 3 (nanosOf digits / 1000000)
      (by decide) (by decide) (by omega) (by omega) hzero (by omega) (by omega), ?_⟩
    rw [pointed_paddedText, TimeOfDay.fractionText, if_neg hzero, if_pos hmilli]
  by_cases hmicro : nanosOf digits % 1000 = 0
  · refine ⟨_, fewestDigits_paddedText h hlength 6 (nanosOf digits / 1000)
      (by decide) (by decide) (by omega) (by omega) hzero (fun _ => hmilli) (by omega), ?_⟩
    rw [pointed_paddedText, TimeOfDay.fractionText, if_neg hzero, if_neg hmilli, if_pos hmicro]
  · refine ⟨_, fewestDigits_paddedText h hlength 9 (nanosOf digits)
      (by decide) (by decide) (by omega) (by omega) hzero (fun _ => hmilli) (fun _ => hmicro), ?_⟩
    rw [pointed_paddedText, TimeOfDay.fractionText, if_neg hzero, if_neg hmilli, if_neg hmicro]

end RowShape
