import Mathlib.Data.List.TakeWhile
import RowShape.Proofs.Digits
import RowShape.Text.Search

/-!
The numeral with which a text starts. What is scanned is the longest prefix of the text that has
the form of a numeral, and a reader of whole texts takes it without a rest.
-/

namespace RowShape

def IsDigits (s : List Char) : Prop := s ≠ [] ∧ AllDigits s

inductive IsOptionalSign : List Char → Prop where
  | absent : IsOptionalSign []
  | sign {c : Char} (h : c = '+' ∨ c = '-') : IsOptionalSign [c]

/-- Digits with an optional point and digits behind it, or a point and digits. -/
inductive IsMantissa : List Char → Prop where
  | whole {digits : List Char} (h : IsDigits digits) : IsMantissa digits
  | pointed {digits fraction : List Char} (h : IsDigits digits) (hfraction : AllDigits fraction) :
      IsMantissa (digits ++ '.' :: fraction)
  | fraction {digits : List Char} (h : IsDigits digits) : IsMantissa ('.' :: digits)

inductive IsOptionalPower : List Char → Prop where
  | absent : IsOptionalPower []
  | power {mark : Char} {sign digits : List Char} (hmark : mark = 'e' ∨ mark = 'E')
      (hsign : IsOptionalSign sign) (hdigits : IsDigits digits) :
      IsOptionalPower (mark :: (sign ++ digits))

/-- `[+-]? (digits ('.' digits?)? | '.' digits) ([eE] [+-]? digits)?` -/
inductive IsNumeral : List Char → Prop where
  | parts {sign mantissa power : List Char} (hsign : IsOptionalSign sign)
      (hmantissa : IsMantissa mantissa) (hpower : IsOptionalPower power) :
      IsNumeral (sign ++ (mantissa ++ power))

/-- The numeral that no other numeral at the start of the text goes beyond. -/
structure LongestNumeral (s t : List Char) : Prop where
  isNumeral : IsNumeral t
  isPrefix : t <+: s
  longest : ∀ u, IsNumeral u → u <+: s → u <+: t

def isMark (c : Char) : Bool := c == 'e' || c == 'E'

theorem isMark_iff {c : Char} : isMark c = true ↔ c = 'e' ∨ c = 'E' := by
  rw [isMark, Bool.or_eq_true, beq_iff_eq, beq_iff_eq]

theorem isSign_iff {c : Char} : isSign c = true ↔ c = '+' ∨ c = '-' := by
  rw [isSign, Bool.or_eq_true, beq_iff_eq, beq_iff_eq]

theorem allDigits_takeWhile (s : List Char) : AllDigits (s.takeWhile Char.isDigit) :=
  fun _ hc => List.mem_takeWhile_imp hc

/-- A text that starts as the unsigned part of a numeral does. -/
def StartsNumber (s : List Char) : Prop := ∃ c cs, s = c :: cs ∧ (c.isDigit = true ∨ c = '.')

theorem IsDigits.startsNumber {s : List Char} (h : IsDigits s) (rest : List Char) :
    StartsNumber (s ++ rest) := by
  cases s with
  | nil => exact absurd rfl h.1
  | cons c cs => exact ⟨c, cs ++ rest, rfl, .inl (h.2 c List.mem_cons_self)⟩

theorem IsMantissa.startsNumber {s : List Char} (h : IsMantissa s) (rest : List Char) :
    StartsNumber (s ++ rest) := by
  cases h with
  | whole h => exact h.startsNumber rest
  | pointed h _ =>
      rw [List.append_assoc]
      exact h.startsNumber _
  | fraction _ => exact ⟨'.', _, rfl, .inr rfl⟩

theorem scanSign_toList (sign : Option Char) {s : List Char}
    (hsign : ∀ c, sign = some c → isSign c = true) (hs : StartsNumber s) :
    scanSign (sign.toList ++ s) = (sign, s) := by
  cases sign with
  | some c => simp [scanSign, hsign c rfl]
  | none =>
      obtain ⟨c, cs, rfl, hc⟩ := hs
      have hnone : isSign c = false := by
        cases hc with
        | inl h => exact isSign_of_isDigit h
        | inr h => rw [h]; rfl
      simp [scanSign, hnone]

/-- A sign is passed over in front of a number. -/
theorem IsOptionalSign.exists_scanSign {sign s : List Char} (h : IsOptionalSign sign)
    (hs : StartsNumber s) : ∃ c : Option Char, scanSign (sign ++ s) = (c, s) := by
  cases h with
  | absent => exact ⟨none, scanSign_toList none nofun hs⟩
  | @sign c h =>
      have hc : ∀ d, some c = some d → isSign d = true := by
        intro d hd
        cases hd
        exact isSign_iff.mpr h
      exact ⟨some c, scanSign_toList (some c) hc hs⟩

section Lengths

variable (s : List Char)

theorem length_scanFraction (whole : List Char) : (scanFraction whole s).2.length ≤ s.length := by
  have h := congrArg List.length (scanFraction_text whole s)
  rw [List.length_append] at h
  omega

theorem length_scanExponent : (Exponent.scan s).2.length ≤ s.length := by
  have h := congrArg List.length (Exponent.scan_text s)
  rw [List.length_append] at h
  omega

end Lengths

theorem scanFraction_point {whole fraction : List Char} (hfraction : AllDigits fraction)
    (hdigits : whole ++ fraction ≠ []) (rest : List Char) :
    scanFraction whole ('.' :: (fraction ++ rest)) =
      (some (fraction ++ rest.takeWhile Char.isDigit), rest.dropWhile Char.isDigit) := by
  have hsome : (whole.isEmpty && (fraction ++ rest.takeWhile Char.isDigit).isEmpty) = false := by
    cases whole with
    | cons _ _ => rfl
    | nil => exact List.isEmpty_eq_false_iff.mpr (List.append_ne_nil_of_left_ne_nil hdigits _)
  simp only [scanFraction, List.takeWhile_append_of_pos hfraction,
    List.dropWhile_append_of_pos hfraction, hsome, Bool.false_eq_true, if_false]

theorem scanFraction_of_ne {s : List Char} (h : s.head? ≠ some '.') (whole : List Char) :
    scanFraction whole s = (none, s) := by
  cases s with
  | nil => rfl
  | cons c cs =>
      have hc : c ≠ '.' := fun heq => h (congrArg some heq)
      simp [scanFraction, hc]

/-- The digits behind a mark are read to their end, whether or not they are the last ones. -/
theorem scanExponent_power {mark : Char} {sign digits : List Char} (hmark : mark = 'e' ∨ mark = 'E')
    (hsign : IsOptionalSign sign) (hdigits : IsDigits digits) (rest : List Char) :
    (Exponent.scan (mark :: (sign ++ (digits ++ rest)))).2 = rest.dropWhile Char.isDigit := by
  have hm : (mark == 'e' || mark == 'E') = true := isMark_iff.mpr hmark
  obtain ⟨c, hc⟩ := hsign.exists_scanSign (hdigits.startsNumber rest)
  simp only [Exponent.scan, hm, if_true, hc, List.takeWhile_append_of_pos hdigits.2,
    List.dropWhile_append_of_pos hdigits.2]
  split
  · next hnone => exact absurd (List.append_eq_nil_iff.mp hnone).1 hdigits.1
  · rfl

/-- A text at which neither digits nor a point go on. -/
def EndsMantissa (s : List Char) : Prop := NoDigitNext s ∧ s.head? ≠ some '.'

theorem endsMantissa_of_mark {mark : Char} (h : mark = 'e' ∨ mark = 'E') (s : List Char) :
    EndsMantissa (mark :: s) := by
  cases h with
  | inl h =>
      rw [h]
      exact ⟨fun c hc => by cases hc; rfl, nofun⟩
  | inr h =>
      rw [h]
      exact ⟨fun c hc => by cases hc; rfl, nofun⟩

/-- What is left behind the digits and the point at the start of a text, if there are any. -/
def afterMantissa? (s : List Char) : Option (List Char) :=
  let whole := s.takeWhile Char.isDigit
  let (fraction, rest) := scanFraction whole (s.dropWhile Char.isDigit)
  if whole.isEmpty && fraction.isNone then none else some rest

theorem afterMantissa?_pointed {whole fraction : List Char} (hwhole : AllDigits whole)
    (hfraction : AllDigits fraction) (hdigits : whole ++ fraction ≠ []) (rest : List Char) :
    afterMantissa? (whole ++ '.' :: (fraction ++ rest)) = some (rest.dropWhile Char.isDigit) := by
  have hpoint : NoDigitNext ('.' :: (fraction ++ rest)) := fun c hc => by cases hc; rfl
  simp only [afterMantissa?, hwhole.takeWhile_append hpoint, hwhole.dropWhile_append hpoint,
    scanFraction_point hfraction hdigits, Option.isNone_some, Bool.and_false, Bool.false_eq_true,
    if_false]

/-- A mantissa is read as a whole, and to its end where nothing goes on. -/
theorem IsMantissa.exists_after {s : List Char} (h : IsMantissa s) (rest : List Char) :
    ∃ after, afterMantissa? (s ++ rest) = some after ∧ after.length ≤ rest.length ∧
      (EndsMantissa rest → after = rest) := by
  have hshort := List.length_dropWhile_le Char.isDigit rest
  have hends (hrest : EndsMantissa rest) : rest.dropWhile Char.isDigit = rest :=
    AllDigits.dropWhile_append (List.forall_mem_nil _) hrest.1
  cases h with
  | whole h =>
      have hsome : (s ++ rest.takeWhile Char.isDigit).isEmpty = false :=
        List.isEmpty_eq_false_iff.mpr (List.append_ne_nil_of_left_ne_nil h.1 _)
      simp only [afterMantissa?, List.takeWhile_append_of_pos h.2, List.dropWhile_append_of_pos h.2,
        hsome, Bool.false_and, Bool.false_eq_true, if_false]
      refine ⟨_, rfl, (length_scanFraction _ _).trans hshort, fun hrest => ?_⟩
      rw [hends hrest, scanFraction_of_ne hrest.2]
  | pointed h hfraction =>
      rw [List.append_assoc, List.cons_append, afterMantissa?_pointed h.2 hfraction
        (List.append_ne_nil_of_left_ne_nil h.1 _)]
      exact ⟨_, rfl, hshort, hends⟩
  | fraction h =>
      have hread := afterMantissa?_pointed (List.forall_mem_nil _) h.2 h.1 rest
      exact ⟨_, hread, hshort, hends⟩

theorem Numeral.scan_rest (s : List Char) :
    (scan s).map (·.2) =
      (afterMantissa? (scanSign s).2).map fun after => (Exponent.scan after).2 := by
  simp only [scan, afterMantissa?]
  split <;> rfl

/-- A numeral at the start of a text is scanned, and as much behind it as goes on. -/
theorem IsNumeral.exists_scan {t : List Char} (h : IsNumeral t) (rest : List Char) :
    ∃ n left, Numeral.scan (t ++ rest) = some (n, left) ∧ left.length ≤ rest.length := by
  obtain ⟨hsign, hmantissa, hpower⟩ := h
  rename_i sign mantissa power
  obtain ⟨c, hc⟩ := hsign.exists_scanSign (hmantissa.startsNumber (power ++ rest))
  obtain ⟨after, hafter, hlength, hends⟩ := hmantissa.exists_after (power ++ rest)
  have hshort : (Exponent.scan after).2.length ≤ rest.length := by
    cases hpower with
    | absent => exact (length_scanExponent after).trans hlength
    | power hmark hpowerSign hdigits =>
        rw [hends (endsMantissa_of_mark hmark _), List.cons_append, List.append_assoc,
          scanExponent_power hmark hpowerSign hdigits]
        exact List.length_dropWhile_le _ _
  have hscan := Numeral.scan_rest (sign ++ (mantissa ++ (power ++ rest)))
  rw [hc, hafter, Option.map_some, Option.map_eq_some_iff] at hscan
  obtain ⟨⟨n, left⟩, hn, rfl⟩ := hscan
  exact ⟨n, _, by rw [List.append_assoc, List.append_assoc, hn], hshort⟩

structure Exponent.WellFormed (e : Exponent) : Prop where
  mark : isMark e.mark = true
  sign : ∀ c, e.sign = some c → isSign c = true
  digits : IsDigits e.digits

/-- The parts of a numeral as the scanners leave them. -/
structure Numeral.WellFormed (n : Numeral) : Prop where
  sign : ∀ c, n.sign = some c → isSign c = true
  whole : AllDigits n.whole
  fraction : ∀ digits, n.fraction = some digits → AllDigits digits
  digits : n.whole ++ n.fraction.getD [] ≠ []
  exponent : ∀ e, n.exponent = some e → e.WellFormed

theorem isSign_of_scanSign {s : List Char} {c : Char} (h : (scanSign s).1 = some c) :
    isSign c = true := by
  cases s with
  | nil => cases h
  | cons d ds =>
      rw [scanSign] at h
      split at h
      case isTrue hd =>
        cases h
        exact hd
      case isFalse => cases h

theorem allDigits_of_scanFraction {whole s digits : List Char}
    (h : (scanFraction whole s).1 = some digits) : AllDigits digits ∧ whole ++ digits ≠ [] := by
  rw [scanFraction.eq_def] at h
  split at h
  · next cs =>
      dsimp only at h
      split at h
      case isTrue => cases h
      case isFalse hsome =>
        cases h
        refine ⟨allDigits_takeWhile cs, fun hnone => hsome ?_⟩
        rw [(List.append_eq_nil_iff.mp hnone).1, (List.append_eq_nil_iff.mp hnone).2]
        rfl
  · cases h

theorem wellFormed_of_scanExponent {s : List Char} {e : Exponent}
    (h : (Exponent.scan s).1 = some e) : e.WellFormed := by
  cases s with
  | nil => cases h
  | cons c cs =>
      rw [Exponent.scan] at h
      split at h
      case isTrue hmark =>
        dsimp only at h
        split at h
        · cases h
        · next hdigits =>
            cases h
            exact ⟨hmark, fun d hd => isSign_of_scanSign hd, hdigits, allDigits_takeWhile _⟩
      case isFalse => cases h

namespace Numeral

theorem scan_wellFormed {s rest : List Char} {n : Numeral} (h : scan s = some (n, rest)) :
    n.WellFormed := by
  simp only [scan] at h
  split at h
  case isTrue => cases h
  case isFalse hsome =>
    cases h
    refine ⟨fun c hc => isSign_of_scanSign hc, allDigits_takeWhile _,
      fun digits hdigits => (allDigits_of_scanFraction hdigits).1, ?_,
      fun e he => wellFormed_of_scanExponent he⟩
    dsimp only
    cases hfraction : (scanFraction _ _).1 with
    | none =>
        rw [hfraction, Option.isNone_none, Bool.and_true, List.isEmpty_iff] at hsome
        rwa [Option.getD_none, List.append_nil]
    | some digits => exact (allDigits_of_scanFraction hfraction).2

theorem isOptionalSign_toList {sign : Option Char} (h : ∀ c, sign = some c → isSign c = true) :
    IsOptionalSign sign.toList := by
  cases sign with
  | none => exact .absent
  | some c => exact .sign (isSign_iff.mp (h c rfl))

/-- The part of a numeral that has the digits. -/
def mantissa (n : Numeral) : List Char := n.whole ++ n.fraction.elim [] ('.' :: ·)

theorem text_eq (n : Numeral) :
    n.text = n.sign.toList ++ (n.mantissa ++ n.exponent.elim [] Exponent.text) := by
  simp only [text, mantissa, List.append_assoc]

namespace WellFormed

variable {n : Numeral}

theorem isMantissa (h : n.WellFormed) : IsMantissa n.mantissa := by
  have hwhole := h.whole
  have hdigits := h.digits
  rw [mantissa]
  cases hfraction : n.fraction with
  | none =>
      rw [hfraction, Option.getD_none, List.append_nil] at hdigits
      rw [Option.elim_none, List.append_nil]
      exact .whole ⟨hdigits, hwhole⟩
  | some digits =>
      have hall := h.fraction digits hfraction
      rw [hfraction, Option.getD_some] at hdigits
      cases hparts : n.whole with
      | nil =>
          rw [hparts] at hdigits
          exact .fraction ⟨hdigits, hall⟩
      | cons d ds =>
          rw [hparts] at hwhole
          exact .pointed ⟨List.cons_ne_nil d ds, hwhole⟩ hall

theorem isNumeral (h : n.WellFormed) : IsNumeral n.text := by
  rw [text_eq]
  refine .parts (isOptionalSign_toList h.sign) h.isMantissa ?_
  cases hexponent : n.exponent with
  | none => exact .absent
  | some e =>
      have he := h.exponent e hexponent
      exact .power (isMark_iff.mp he.mark) (isOptionalSign_toList he.sign) he.digits

end WellFormed

/-- What is scanned is the longest numeral at the start of the text. -/
theorem longest_of_scan {s rest : List Char} {n : Numeral} (h : scan s = some (n, rest)) :
    LongestNumeral s n.text := by
  have hs : n.text ++ rest = s := text_of_scan h
  refine ⟨(scan_wellFormed h).isNumeral, ⟨rest, hs⟩, fun u hu hprefix => ?_⟩
  obtain ⟨more, hmore⟩ := hprefix
  obtain ⟨m, left, hscan, hlength⟩ := hu.exists_scan more
  rw [hmore, h] at hscan
  cases hscan
  refine List.prefix_of_prefix_length_le ⟨more, hmore⟩ ⟨rest, hs⟩ ?_
  have htotal := congrArg List.length (hmore.trans hs.symm)
  rw [List.length_append, List.length_append] at htotal
  omega

theorem scan_eq_none_iff {s : List Char} : scan s = none ↔ ∀ t, IsNumeral t → ¬ t <+: s := by
  constructor
  · intro h t ht hprefix
    obtain ⟨rest, rfl⟩ := hprefix
    obtain ⟨n, left, hscan, _⟩ := ht.exists_scan rest
    rw [h] at hscan
    cases hscan
  · intro h
    cases hscan : scan s with
    | none => rfl
    | some result =>
        obtain ⟨n, rest⟩ := result
        have hlongest := longest_of_scan hscan
        exact absurd hlongest.isPrefix (h _ hlongest.isNumeral)

end Numeral

end RowShape
