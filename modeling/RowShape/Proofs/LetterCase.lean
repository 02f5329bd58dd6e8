import Mathlib.Data.List.Forall2
import RowShape.Text.Search

/-!
Texts that differ in the case of ASCII letters only. They are the texts that fold to the same
lower case, and what holds of all letters alike is blind to the difference.
-/

namespace RowShape

theorem isAlpha_iff {c : Char} :
    c.isAlpha = true ↔ 65 ≤ c.toNat ∧ c.toNat ≤ 90 ∨ 97 ≤ c.toNat ∧ c.toNat ≤ 122 := by
  have hupper : c.isUpper = true ↔ 65 ≤ c.toNat ∧ c.toNat ≤ 90 := decide_eq_true_iff
  have hlower : c.isLower = true ↔ 97 ≤ c.toNat ∧ c.toNat ≤ 122 :=
    Bool.and_eq_true_iff.trans (and_congr decide_eq_true_iff decide_eq_true_iff)
  exact Bool.or_eq_true_iff.trans (or_congr hupper hlower)

theorem toNat_toLower (c : Char) :
    c.toLower.toNat = if 65 ≤ c.toNat ∧ c.toNat ≤ 90 then c.toNat + 32 else c.toNat := by
  by_cases h : 65 ≤ c.toNat ∧ c.toNat ≤ 90
  · have hlower : c.toLower = ⟨c.val + 32, _⟩ := dif_pos h
    have hshift : (c.val + 32).toNat = (c.toNat + 32) % 2 ^ 32 := UInt32.toNat_add c.val 32
    rw [if_pos h, hlower]
    exact hshift.trans (Nat.mod_eq_of_lt (by omega))
  · have hlower : c.toLower = c := dif_neg h
    rw [if_neg h, hlower]

theorem toNat_toUpper (c : Char) :
    c.toUpper.toNat = if 97 ≤ c.toNat ∧ c.toNat ≤ 122 then c.toNat - 32 else c.toNat := by
  by_cases h : 97 ≤ c.toNat ∧ c.toNat ≤ 122
  · -- The distance between the cases is negative and wraps around.
    have hupper : c.toUpper = ⟨c.val + ('A'.val - 'a'.val), _⟩ := dif_pos h
    have hshift : (c.val + ('A'.val - 'a'.val)).toNat = (c.toNat + (2 ^ 32 - 32)) % 2 ^ 32 :=
      UInt32.toNat_add c.val _
    rw [if_pos h, hupper]
    exact hshift.trans (by omega)
  · have hupper : c.toUpper = c := dif_neg h
    rw [if_neg h, hupper]

theorem toLower_of_isUpper_eq_false {c : Char} (h : c.isUpper = false) : c.toLower = c :=
  dif_neg (of_decide_eq_false h)

/-- The same character, up to the case of an ASCII letter. -/
def SameLetter (c d : Char) : Prop := d = c ∨ d = c.toLower ∨ d = c.toUpper

abbrev SameLetters (s t : List Char) : Prop := List.Forall₂ SameLetter s t

theorem sameLetter_iff {c d : Char} : SameLetter c d ↔ c.toLower = d.toLower := by
  simp only [SameLetter, ← Char.toNat_inj, toNat_toLower, toNat_toUpper]
  split_ifs <;> omega

theorem sameLetters_iff {s t : List Char} : SameLetters s t ↔ foldCase s = foldCase t := by
  have heq : SameLetter = fun c d => c.toLower = d.toLower := by
    funext c d
    exact propext sameLetter_iff
  rw [SameLetters, heq, foldCase, foldCase, ← List.forall₂_eq_eq_eq, List.forall₂_map_left_iff,
    List.forall₂_map_right_iff]

/-- A property that all letters share does not see their case. -/
theorem comp_toLower {p : Char → Bool} {b : Bool} (h : ∀ c, c.isAlpha = true → p c = b) :
    p ∘ Char.toLower = p := by
  funext c
  change p c.toLower = p c
  cases hupper : c.isUpper with
  | false => rw [toLower_of_isUpper_eq_false hupper]
  | true =>
      have hc : c.isAlpha = true := Bool.or_eq_true_iff.mpr (.inl hupper)
      have hlower : c.toLower.isAlpha = true := by
        rw [isAlpha_iff] at hc ⊢
        rw [toNat_toLower]
        split <;> omega
      rw [h c hc, h c.toLower hlower]

end RowShape
