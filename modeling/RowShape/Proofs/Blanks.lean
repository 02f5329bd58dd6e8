import Mathlib.Data.List.DropRight
import RowShape.Proofs.Digits
import RowShape.Proofs.LetterCase
import RowShape.Text.Blank

/-!
Texts without blanks, and what trimming takes off the ends of others.
-/

namespace RowShape

def NoBlank (s : List Char) : Prop := ∀ c ∈ s, isBlank c = false

instance (s : List Char) : Decidable (NoBlank s) :=
  List.decidableBAll (fun c => isBlank c = false) s

theorem isBlank_of_isDigit {c : Char} (h : c.isDigit = true) : isBlank c = false := by
  have hrange : 48 ≤ c.toNat ∧ c.toNat ≤ 57 := Char.isDigit_iff_toNat.mp h
  simp only [isBlank, blankRanges, List.any_cons, List.any_nil, Bool.or_false,
    Bool.or_eq_false_iff, Bool.and_eq_false_iff, decide_eq_false_iff_not]
  omega

theorem isBlank_of_isAlpha {c : Char} (h : c.isAlpha = true) : isBlank c = false := by
  have hrange := isAlpha_iff.mp h
  simp only [isBlank, blankRanges, List.any_cons, List.any_nil, Bool.or_false,
    Bool.or_eq_false_iff, Bool.and_eq_false_iff, decide_eq_false_iff_not]
  omega

theorem AllDigits.noBlank {s : List Char} (h : AllDigits s) : NoBlank s :=
  fun c hc => isBlank_of_isDigit (h c hc)

theorem noBlank_append {s t : List Char} : NoBlank (s ++ t) ↔ NoBlank s ∧ NoBlank t :=
  List.forall_mem_append

theorem noBlank_cons {c : Char} {s : List Char} :
    NoBlank (c :: s) ↔ isBlank c = false ∧ NoBlank s :=
  List.forall_mem_cons

theorem NoBlank.dropWhile {s : List Char} (h : NoBlank s) : s.dropWhile isBlank = s := by
  cases s with
  | nil => rfl
  | cons c cs => simp [(noBlank_cons.mp h).1]

theorem NoBlank.trim {s : List Char} (h : NoBlank s) : trim s = s := by
  have hreverse : NoBlank s.reverse := fun c hc => h c (List.mem_reverse.mp hc)
  rw [RowShape.trim, trimStart, h.dropWhile, trimEnd, dropEndWhile, hreverse.dropWhile,
    List.reverse_reverse]

theorem rdropWhile_append_of_all {p : Char → Bool} {s run : List Char}
    (h : ∀ c ∈ run, p c = true) : (s ++ run).rdropWhile p = s.rdropWhile p := by
  have hreverse : ∀ c ∈ run.reverse, p c = true := fun c hc => h c (List.mem_reverse.mp hc)
  rw [List.rdropWhile, List.reverse_append, List.dropWhile_append_of_pos hreverse, List.rdropWhile]

/-- Nothing is dropped from an end whose last part has no such character. -/
theorem rdropWhile_append_of_none {p : Char → Bool} {s run : List Char} (hne : run ≠ [])
    (h : ∀ c ∈ run, p c = false) : (s ++ run).rdropWhile p = s ++ run := by
  rw [List.rdropWhile_eq_self_iff]
  intro hl
  rw [List.getLast_append_of_right_ne_nil s run hne, h _ (List.getLast_mem hne)]
  exact Bool.false_ne_true

/-- What is dropped is an end of the text. -/
theorem exists_dropped (p : Char → Bool) (s : List Char) :
    ∃ run, s = s.rdropWhile p ++ run ∧ ∀ c ∈ run, p c = true :=
  ⟨s.rtakeWhile p, List.rdropWhile_append_rtakeWhile.symm, fun _ hc => List.mem_rtakeWhile_imp hc⟩

/-- What trimming takes off are blanks on both sides. -/
theorem exists_trimmed (s : List Char) :
    ∃ before after, s = before ++ trim s ++ after ∧ (∀ c ∈ before, isBlank c = true) ∧
      ∀ c ∈ after, isBlank c = true := by
  obtain ⟨after, hafter, hblank⟩ := exists_dropped isBlank (s.dropWhile isBlank)
  refine ⟨s.takeWhile isBlank, after, ?_, fun c hc => List.mem_takeWhile_imp hc, hblank⟩
  have hs : s = s.takeWhile isBlank ++ s.dropWhile isBlank := List.takeWhile_append_dropWhile.symm
  rw [List.append_assoc]
  exact hs.trans (congrArg _ hafter)

/-- Blanks on either side of a text make no difference to what is left of it. -/
theorem trim_append_blanks {before after : List Char} (hbefore : ∀ c ∈ before, isBlank c = true)
    (hafter : ∀ c ∈ after, isBlank c = true) (s : List Char) :
    trim (before ++ s ++ after) = trim s := by
  have hstart : trimStart (before ++ s ++ after) = trimStart (s ++ after) := by
    rw [trimStart, List.append_assoc, List.dropWhile_append_of_pos hbefore, trimStart]
  have hend : trimEnd (trimStart (s ++ after)) = trimEnd (trimStart s) := by
    simp only [trimStart, List.dropWhile_append]
    split
    case isTrue hempty =>
      have hnone : after.dropWhile isBlank = [] := List.dropWhile_eq_nil_iff.mpr hafter
      rw [hnone, List.isEmpty_iff.mp hempty]
    case isFalse => exact rdropWhile_append_of_all hafter
  rw [trim, hstart, hend, trim]

/-- Blanks around a text are trimmed when it starts and ends with something else. -/
theorem trim_between {before after first rest start last : List Char}
    (hbefore : ∀ c ∈ before, isBlank c = true) (hafter : ∀ c ∈ after, isBlank c = true)
    (hfirst : NoBlank first) (hfirstNe : first ≠ []) (hlast : NoBlank last) (hlastNe : last ≠ [])
    (h : first ++ rest = start ++ last) :
    trim (before ++ (first ++ rest) ++ after) = first ++ rest := by
  have hstart : trimStart (first ++ rest) = first ++ rest := by
    cases first with
    | nil => exact absurd rfl hfirstNe
    | cons c cs =>
        have hc := (noBlank_cons.mp hfirst).1
        rw [trimStart, List.cons_append, List.dropWhile_cons_of_neg (by simp [hc])]
  rw [trim_append_blanks hbefore hafter, trim, hstart, h]
  exact rdropWhile_append_of_none hlastNe hlast

end RowShape
