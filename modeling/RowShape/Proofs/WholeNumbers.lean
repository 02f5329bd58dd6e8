import Mathlib.Algebra.Group.Nat.Defs
import RowShape.Number.Double

/-!
Whole numbers in binary64. A whole number is rounded to the 53 leading bits of its magnitude,
ties to even, so that it stays what it is when the bits behind them are zeros.
-/

namespace RowShape

theorem le_nearestEven (num den : Nat) : num / den ≤ nearestEven num den := by
  simp only [nearestEven]
  split
  · omega
  split <;> omega

theorem nearestEven_le (num den : Nat) : nearestEven num den ≤ num / den + 1 := by
  simp only [nearestEven]
  split
  · omega
  split <;> omega

theorem nearestEven_of_dvd {num den : Nat} (hden : 0 < den) (h : den ∣ num) :
    nearestEven num den = num / den := by
  have hrest : num % den = 0 := Nat.mod_eq_zero_of_dvd h
  simp only [nearestEven, hrest, Nat.mul_zero, hden, if_true]

theorem nearestEven_one (num : Nat) : nearestEven num 1 = num := by
  rw [nearestEven_of_dvd (by decide) (Nat.one_dvd num), Nat.div_one]

namespace Finite

/-- The magnitude without its fraction. -/
def whole (f : Finite) : Nat := f.ratio.1 / f.ratio.2

theorem truncate_eq (f : Finite) :
    f.truncate = if f.negative then -(f.whole : Int) else f.whole := rfl

theorem parts_of_code {f : Finite} {order m : Nat} (hcode : f.code = order * binade + m)
    (hlow : binade ≤ m) (hhigh : m < 2 * binade) :
    f.significand = m ∧ f.exponent = (order : Int) - 1074 := by
  have hsplit : f.code = binade * (order + 1) + (m - binade) := by
    rw [hcode, Nat.mul_add, Nat.mul_comm]
    omega
  have hrest : m - binade < binade := by omega
  have hdiv : f.code / binade = order + 1 := by
    rw [hsplit, Nat.mul_add_div (by decide), Nat.div_eq_of_lt hrest, Nat.add_zero]
  have hmod : f.code % binade = m - binade := by
    rw [hsplit, Nat.mul_add_mod, Nat.mod_eq_of_lt hrest]
  have hnormal : ¬ f.code < binade := by
    rw [hcode]
    omega
  constructor
  · rw [significand, if_neg hnormal, hmod]
    omega
  · rw [exponent, hdiv]
    omega

theorem whole_of_up {f : Finite} {e : Nat} (h : f.exponent = e) :
    f.whole = f.significand * 2 ^ e := by
  have hpos : 0 ≤ f.exponent := by omega
  rw [whole, ratio, if_pos hpos, h, Int.toNat_natCast, Nat.div_one]
  rfl

theorem whole_of_down {f : Finite} {e : Nat} (h : f.exponent = -(e : Int)) :
    f.whole = f.significand / 2 ^ e := by
  cases e with
  | zero => rw [whole_of_up (e := 0) (by omega), Nat.pow_zero, Nat.mul_one, Nat.div_one]
  | succ e =>
      have hneg : ¬ 0 ≤ f.exponent := by omega
      have hback : (-f.exponent).toNat = e + 1 := by omega
      rw [whole, ratio, if_neg hneg, hback]
      rfl

theorem whole_of_zero {f : Finite} (h : f.significand = 0) : f.whole = 0 := by
  rw [whole, ratio]
  split
  · rw [h, Nat.zero_mul, Nat.zero_div]
  · rw [h, Nat.zero_div]

end Finite

/-- A whole number rounded to the 53 leading bits of its magnitude, ties to even. -/
def roundWhole (n : Nat) : Nat := nearestEven n (2 ^ (n.log2 - 52)) * 2 ^ (n.log2 - 52)

/-- Numbers of 53 bits with zeros behind them. -/
def FitsSignificand (n : Nat) : Prop := ∃ m k, n = m * 2 ^ k ∧ m < 2 ^ 53

theorem roundWhole_of_le {n : Nat} (hlog : n.log2 ≤ 52) : roundWhole n = n := by
  have hunit : n.log2 - 52 = 0 := by omega
  rw [roundWhole, hunit, Nat.pow_zero, nearestEven_one, Nat.mul_one]

theorem roundWhole_eq_iff_dvd (n : Nat) : roundWhole n = n ↔ 2 ^ (n.log2 - 52) ∣ n := by
  constructor
  · intro h
    have hdvd : 2 ^ (n.log2 - 52) ∣ roundWhole n := Nat.dvd_mul_left _ _
    rwa [h] at hdvd
  · intro h
    rw [roundWhole, nearestEven_of_dvd (Nat.two_pow_pos _) h, Nat.div_mul_cancel h]

theorem dvd_iff_fitsSignificand {n : Nat} (hn : n ≠ 0) :
    2 ^ (n.log2 - 52) ∣ n ↔ FitsSignificand n := by
  constructor
  · rintro ⟨m, hm⟩
    refine ⟨m, n.log2 - 52, hm.trans (Nat.mul_comm _ _), ?_⟩
    have hpow : 2 ^ (n.log2 + 1) ≤ 2 ^ (n.log2 - 52) * 2 ^ 53 := by
      rw [← Nat.pow_add]
      exact Nat.pow_le_pow_right (by decide) (by omega)
    have hlt : 2 ^ (n.log2 - 52) * m < 2 ^ (n.log2 - 52) * 2 ^ 53 := by
      rw [← hm]
      exact Nat.lt_of_lt_of_le Nat.lt_log2_self hpow
    exact Nat.lt_of_mul_lt_mul_left hlt
  · rintro ⟨m, k, hm, hlt⟩
    have hlog : n.log2 < 53 + k := by
      rw [Nat.log2_lt hn, hm, Nat.pow_add]
      exact Nat.mul_lt_mul_of_pos_right hlt (Nat.two_pow_pos k)
    have hpow : 2 ^ (n.log2 - 52) ∣ 2 ^ k := Nat.pow_dvd_pow 2 (by omega)
    rw [hm] at hpow ⊢
    exact Nat.dvd_mul_left_of_dvd hpow m

theorem roundWhole_eq_iff (n : Nat) : roundWhole n = n ↔ FitsSignificand n := by
  by_cases hn : n = 0
  · rw [hn]
    exact ⟨fun _ => ⟨0, 0, rfl, by decide⟩, fun _ => rfl⟩
  · rw [roundWhole_eq_iff_dvd, dvd_iff_fitsSignificand hn]

/-- Shifted until its highest bit is the 53rd, a number has 53 bits before the point. -/
theorem aligned_bounds {n : Nat} (hn : n ≠ 0) :
    binade * 2 ^ (n.log2 - 52) ≤ n * 2 ^ (52 - n.log2) ∧
      n * 2 ^ (52 - n.log2) < 2 * binade * 2 ^ (n.log2 - 52) := by
  have hlow : 2 ^ n.log2 ≤ n := Nat.log2_self_le hn
  have hhigh : n < 2 ^ (n.log2 + 1) := Nat.lt_log2_self
  have hshift : binade * 2 ^ (n.log2 - 52) = 2 ^ n.log2 * 2 ^ (52 - n.log2) := by
    rw [show binade = 2 ^ 52 from rfl, ← Nat.pow_add, ← Nat.pow_add]
    congr 1
    omega
  constructor
  · rw [hshift]
    exact Nat.mul_le_mul_right _ hlow
  · rw [Nat.mul_assoc, hshift, ← Nat.mul_assoc, ← Nat.pow_succ']
    exact Nat.mul_lt_mul_of_pos_right hhigh (Nat.two_pow_pos _)

theorem nearestEven_bounds {n : Nat} (hn : n ≠ 0) :
    binade ≤ nearestEven (n * 2 ^ (52 - n.log2)) (2 ^ (n.log2 - 52)) ∧
      nearestEven (n * 2 ^ (52 - n.log2)) (2 ^ (n.log2 - 52)) ≤ 2 * binade := by
  have hpos := Nat.two_pow_pos (n.log2 - 52)
  obtain ⟨hlow, hhigh⟩ := aligned_bounds hn
  constructor
  · exact Nat.le_trans ((Nat.le_div_iff_mul_le hpos).mpr hlow) (le_nearestEven _ _)
  · exact Nat.le_trans (nearestEven_le _ _) ((Nat.div_lt_iff_lt_mul hpos).mpr hhigh)

/-- The code of a rounded whole number stands for that number, also where rounding up has
carried into the next power of two. -/
theorem Finite.whole_of_code {f : Finite} {n : Nat} (hn : n ≠ 0)
    (hcode : f.code = (n.log2 + 1022) * binade +
      nearestEven (n * 2 ^ (52 - n.log2)) (2 ^ (n.log2 - 52))) :
    f.whole = roundWhole n := by
  obtain ⟨hlow, hhigh⟩ := nearestEven_bounds hn
  rcases Nat.lt_or_ge 52 n.log2 with hlarge | hsmall
  · have hshift : 52 - n.log2 = 0 := by omega
    rw [hshift, Nat.pow_zero, Nat.mul_one] at hcode hlow hhigh
    rcases Nat.lt_or_eq_of_le hhigh with hkept | hcarry
    · obtain ⟨hsignificand, hexponent⟩ := parts_of_code hcode hlow hkept
      have hup : f.exponent = (n.log2 - 52 : Nat) := by omega
      rw [whole_of_up hup, hsignificand, roundWhole]
    · have hnext : f.code = (n.log2 + 1023) * binade + binade := by
        rw [hcode, hcarry]
        simp only [binade]
        omega
      obtain ⟨hsignificand, hexponent⟩ := parts_of_code hnext (Nat.le_refl _) (by decide)
      have hup : f.exponent = (n.log2 - 52 + 1 : Nat) := by omega
      rw [whole_of_up hup, hsignificand, roundWhole, hcarry, Nat.pow_succ]
      simp only [binade]
      omega
  · have hunit : n.log2 - 52 = 0 := by omega
    have hbound := (aligned_bounds hn).2
    rw [hunit, Nat.pow_zero, nearestEven_one] at hcode hlow
    rw [hunit, Nat.pow_zero, Nat.mul_one] at hbound
    obtain ⟨hsignificand, hexponent⟩ := parts_of_code hcode hlow hbound
    have hdown : f.exponent = -((52 - n.log2 : Nat) : Int) := by omega
    rw [whole_of_down hdown, hsignificand, Nat.mul_div_cancel _ (Nat.two_pow_pos _),
      roundWhole_of_le hsmall]

namespace Double

theorem binaryOrder_one {n : Nat} (hn : n ≠ 0) : binaryOrder n 1 = n.log2 := by
  have hone : ((1 : Nat).log2 : Int) = 0 := rfl
  have hdown : (-(n.log2 : Int)).toNat = 0 := by omega
  have hpow : ¬ n * Nat.pow 2 0 < 1 * Nat.pow 2 n.log2 := by
    rw [Nat.one_mul, Nat.pow_eq, Nat.pow_eq, Nat.pow_zero, Nat.mul_one]
    exact Nat.not_lt.mpr (Nat.log2_self_le hn)
  rw [binaryOrder, hone, Int.sub_zero, hdown, Int.toNat_natCast]
  exact if_neg hpow

theorem ofRatio_one {negative : Bool} {n code : Nat} (hn : n ≠ 0)
    (hcode : code = (n.log2 + 1022) * binade +
      nearestEven (n * 2 ^ (52 - n.log2)) (2 ^ (n.log2 - 52)))
    (hlt : code < 2047 * binade) : ofRatio negative n 1 = .finite ⟨negative, code, hlt⟩ := by
  have hexponent : max (-1074) (binaryOrder n 1 - 52) = (n.log2 : Int) - 52 := by
    rw [binaryOrder_one hn]
    omega
  have hup : ((n.log2 : Int) - 52).toNat = n.log2 - 52 := by omega
  have hdown : (-((n.log2 : Int) - 52)).toNat = 52 - n.log2 := by omega
  have hbias : ((n.log2 : Int) - 52 + 1074).toNat = n.log2 + 1022 := by omega
  subst hcode
  simp only [ofRatio, hn, hexponent, hup, hdown, hbias, Nat.one_mul, Nat.pow_eq, hlt, ↓reduceIte,
    ↓reduceDIte]

/-- A whole number in the range of binary64 becomes the one that its leading bits give. -/
theorem exists_whole (negative : Bool) {n : Nat} (hlog : n.log2 < 1023) :
    ∃ f, ofRatio negative n 1 = .finite f ∧ f.negative = negative ∧ f.whole = roundWhole n := by
  by_cases hn : n = 0
  · rw [hn]
    exact ⟨.zero negative, rfl, rfl, Finite.whole_of_zero rfl⟩
  · have hhigh := (nearestEven_bounds hn).2
    have hlt : (n.log2 + 1022) * binade +
        nearestEven (n * 2 ^ (52 - n.log2)) (2 ^ (n.log2 - 52)) < 2047 * binade := by
      have hle : (n.log2 + 1022 + 2) * binade ≤ 2046 * binade :=
        Nat.mul_le_mul_right _ (by omega)
      rw [Nat.add_mul] at hle
      simp only [binade] at hle hhigh ⊢
      omega
    exact ⟨_, ofRatio_one hn rfl hlt, rfl, Finite.whole_of_code hn rfl⟩

theorem ofDecimal_whole (negative : Bool) (n : Nat) :
    ofDecimal negative n 0 = ofRatio negative n 1 := by
  by_cases hn : n = 0
  · rw [hn]
    rfl
  · have hlow : ¬ (0 : Int) < -((n.log2 : Int) + 401) := by omega
    have hpow : n * Nat.pow 10 (0 : Int).toNat = n := Nat.mul_one n
    rw [ofDecimal, if_neg hn, if_neg (by decide), if_neg hlow, hpow]
    rfl

end Double

/-- A magnitude with its sign. -/
def signed (negative : Bool) (n : Nat) : Int := if negative then -(n : Int) else n

theorem log2_lt_of_signed {n : Nat} {negative : Bool}
    (h : int64Min ≤ signed negative n ∧ signed negative n ≤ int64Max) : n.log2 < 1023 := by
  by_cases hn : n = 0
  · rw [hn]
    decide
  · have hle : n ≤ 9223372036854775808 := by
      cases negative <;> simp only [signed, int64Min, int64Max, reduceIte] at h <;> omega
    have hlog : n.log2 < 64 := (Nat.log2_lt hn).mpr (by omega)
    omega

namespace Double

theorem toInt64_ofDecimal_whole {n : Nat} (negative : Bool) (hlog : n.log2 < 1023) :
    (ofDecimal negative n 0).toInt64 =
      max int64Min (min int64Max (signed negative (roundWhole n))) := by
  obtain ⟨f, hf, hnegative, hwhole⟩ := exists_whole negative hlog
  rw [ofDecimal_whole, hf, toInt64, Finite.truncate_eq, hnegative, hwhole, signed]

/-- On the way through binary64 an integer of 64 bits is kept if its leading bits say all of
it. The largest one is kept too, since the power of two above it is clamped. -/
theorem toInt64_ofDecimal_eq_iff {n : Nat} {negative : Bool}
    (h : int64Min ≤ signed negative n ∧ signed negative n ≤ int64Max) :
    (ofDecimal negative n 0).toInt64 = signed negative n ↔
      signed negative n = int64Max ∨ FitsSignificand n := by
  rw [toInt64_ofDecimal_whole negative (log2_lt_of_signed h), ← roundWhole_eq_iff]
  have hleast : roundWhole 9223372036854775808 = 9223372036854775808 := by decide
  have hgreatest : roundWhole 9223372036854775807 = 9223372036854775808 := by decide
  constructor
  · intro hround
    by_cases hkept : roundWhole n = n
    · exact .inr hkept
    · left
      have hn : n ≠ 9223372036854775808 := by
        rintro rfl
        exact hkept hleast
      cases negative <;> simp only [signed, int64Min, int64Max, reduceIte] at h hround ⊢ <;> omega
  · rintro (hmax | hkept)
    · cases negative with
      | false =>
          have hn : n = 9223372036854775807 := Int.ofNat.inj hmax
          rw [hn, hgreatest]
          rfl
      | true =>
          simp only [signed, int64Max, reduceIte] at hmax
          omega
    · rw [hkept]
      omega

end Double

end RowShape
