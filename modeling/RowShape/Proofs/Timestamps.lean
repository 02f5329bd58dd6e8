import Mathlib.Data.List.Basic
import Mathlib.Data.List.TakeWhile
import RowShape.Proofs.Blanks
import RowShape.Proofs.Fractions
import RowShape.Proofs.TimeReaders

/-!
The text of a timestamp is read back. Years of four digits are read as RFC 3339 has them, and
the timestamp comes back whole; a text whose year has a sign is in no layout that is read.
-/

namespace RowShape

theorem trimStart_paddedText (width n : Nat) (rest : List Char) :
    trimStart (paddedText width n ++ rest) = paddedText width n ++ rest := by
  have hdigits := allDigits_paddedText width n
  have hne := paddedText_ne_nil width n
  cases hs : paddedText width n with
  | nil => exact absurd hs hne
  | cons c cs =>
      rw [hs] at hdigits
      simp [trimStart, isBlank_of_isDigit (hdigits c (List.mem_cons_self ..))]

theorem readNumber?_eq {width : Nat} {digits rest : List Char}
    (htake : ((digits ++ rest).take width).takeWhile Char.isDigit = digits) (hne : digits ≠ []) :
    readNumber? width (digits ++ rest) = some (digitsValue digits, rest) := by
  unfold readNumber?
  rw [htake]
  split
  · contradiction
  · rw [List.drop_left]

/-- Digits that fill the width are read, whatever follows them. -/
theorem readNumber?_paddedText {width n : Nat} (hwidth : 0 < width) (hn : n < 10 ^ width)
    (rest : List Char) : readNumber? width (paddedText width n ++ rest) = some (n, rest) := by
  have htake : ((paddedText width n ++ rest).take width).takeWhile Char.isDigit =
      paddedText width n := by
    rw [List.take_left' (length_paddedText hwidth hn), List.takeWhile_eq_self_iff]
    exact allDigits_paddedText width n
  rw [readNumber?_eq htake (paddedText_ne_nil width n), digitsValue_paddedText]

theorem readTwo?_paddedText {n : Nat} (hn : n < 100) (rest : List Char) :
    readTwo? (paddedText 2 n ++ rest) = some (n, rest) := by
  have hlength : (paddedText 2 n).length = 2 := length_paddedText (by decide) hn
  have hdigits := allDigits_paddedText 2 n
  have hvalue := digitsValue_paddedText 2 n
  obtain ⟨a, b, h⟩ := List.length_eq_two.mp hlength
  rw [h] at hdigits hvalue ⊢
  obtain ⟨ha, hb, -⟩ : a.isDigit = true ∧ b.isDigit = true ∧ AllDigits [] := by
    simpa [AllDigits] using hdigits
  simp only [List.cons_append, List.nil_append, readTwo?, ha, hb, Bool.and_self, ↓reduceIte, hvalue]

theorem readFraction?_point {width n : Nat} (hwidth : 0 < width) (hmax : width ≤ 9)
    (hn : n < 10 ^ width) {rest : List Char} (hdigit : NoDigitNext rest)
    (hpoint : rest.head? ≠ some '.') :
    readFraction? ('.' :: (paddedText width n ++ rest)) =
      some (n * Nat.pow 10 (9 - width), rest) := by
  have hlength := length_paddedText hwidth hn
  have hread := readFraction?_pointed (allDigits_paddedText width n) (by omega) hdigit hpoint
  rwa [pointed_paddedText, nanosOf, digitsValue_paddedText, hlength] at hread

/-- The digits that are left out are zeros. -/
theorem readFraction?_fractionText {nanos : Nat} (h : nanos < 1000000000) {rest : List Char}
    (hdigit : NoDigitNext rest) (hpoint : rest.head? ≠ some '.') :
    readFraction? (TimeOfDay.fractionText nanos ++ rest) = some (nanos, rest) := by
  unfold TimeOfDay.fractionText
  split
  · next hzero =>
      subst hzero
      cases rest with
      | nil => rfl
      | cons c cs =>
          have hc : c ≠ '.' := fun h => hpoint (congrArg some h)
          simp [readFraction?, hc]
  split
  · next hmilli =>
      rw [List.cons_append, readFraction?_point (by decide) (by decide) (by omega) hdigit hpoint]
      have hvalue : nanos / 1000000 * Nat.pow 10 (9 - 3) = nanos :=
        Nat.div_mul_cancel (Nat.dvd_of_mod_eq_zero hmilli)
      rw [hvalue]
  split
  · next hmicro =>
      rw [List.cons_append, readFraction?_point (by decide) (by decide) (by omega) hdigit hpoint]
      have hvalue : nanos / 1000 * Nat.pow 10 (9 - 6) = nanos :=
        Nat.div_mul_cancel (Nat.dvd_of_mod_eq_zero hmicro)
      rw [hvalue]
  · rw [List.cons_append, readFraction?_point (by decide) (by decide) h hdigit hpoint]
    have hvalue : nanos * Nat.pow 10 (9 - 9) = nanos := Nat.mul_one nanos
    rw [hvalue]

/-- The ends of what follows the seconds: neither a digit nor a point. -/
theorem head?_offsetText (offset : Int) :
    (offsetText offset).head? = some 'Z' ∨ (offsetText offset).head? = some '-' ∨
      (offsetText offset).head? = some '+' := by
  unfold offsetText
  split
  · exact .inl rfl
  · split
    · exact .inr (.inl rfl)
    · exact .inr (.inr rfl)

theorem noDigitNext_offsetText (offset : Int) : NoDigitNext (offsetText offset) := by
  intro c hc
  rcases head?_offsetText offset with hhead | hhead | hhead
  all_goals
    rw [hhead] at hc
    cases hc
    rfl

theorem head?_offsetText_ne (offset : Int) : (offsetText offset).head? ≠ some '.' := by
  rcases head?_offsetText offset with hhead | hhead | hhead
  all_goals
    rw [hhead]
    decide

theorem offsetText_ne_nil (offset : Int) : (offsetText offset).isEmpty = false := by
  rcases head?_offsetText offset with hhead | hhead | hhead
  all_goals
    cases h : offsetText offset with
    | nil =>
        rw [h] at hhead
        cases hhead
    | cons c cs => rfl

/-- A sign with hours and minutes is read whole, if the separator leaves the minutes over. -/
theorem readOffset?_signed {separator : List Char → Option (List Char)} {hours minutes : Nat}
    (hhours : hours < 100) (hminutes : minutes < 60)
    (hseparator : separator (':' :: paddedText 2 minutes) = some (paddedText 2 minutes))
    {sign : Char} {negative : Bool} (hsign : isNegative? (some sign) = some negative) :
    readOffset? separator (sign :: paddedText 2 hours ++ ':' :: paddedText 2 minutes) =
      some (if negative then -((hours * 3600 + minutes * 60 : Nat) : Int)
        else (hours * 3600 + minutes * 60 : Nat), []) := by
  have hhoursText (rest : List Char) := readTwo?_paddedText hhours rest
  have hminutesText := readTwo?_paddedText (n := minutes) (by omega) []
  have hsixty : ¬ 60 ≤ minutes := Nat.not_le.mpr hminutes
  rw [List.append_nil] at hminutesText
  rw [readOffset?_eq]
  simp only [List.cons_append, List.head?_cons, List.tail_cons, hsign, hhoursText, hseparator,
    hminutesText, hsixty, Option.bind_some, ↓reduceIte]

/-- An offset of whole minutes, at most a day off, is read as it is written. -/
theorem readOffset?_offsetText {offset : Int} (hne : offset ≠ 0) (hlt : offset.natAbs < 86400)
    (hminutes : offset.natAbs % 60 = 0) :
    readOffset? (stripLead? [':']) (offsetText offset) = some (offset, []) := by
  have hseconds : offset.natAbs / 3600 * 3600 + offset.natAbs / 60 % 60 * 60 = offset.natAbs := by
    omega
  have hhours : offset.natAbs / 3600 < 100 := by omega
  have hsixty : offset.natAbs / 60 % 60 < 60 := Nat.mod_lt _ (by decide)
  have hcolon (rest : List Char) : stripLead? [':'] (':' :: rest) = some rest := rfl
  have hread {sign : Char} {negative : Bool} (hsign : isNegative? (some sign) = some negative) :=
    readOffset?_signed hhours hsixty (hcolon _) hsign
  rw [offsetText, if_neg hne]
  split
  · next hnegative =>
      rw [hread (rfl : isNegative? (some '-') = some true), hseconds]
      simp only [↓reduceIte, Option.some.injEq, Prod.mk.injEq, and_true]
      omega
  · next hpositive =>
      rw [hread (rfl : isNegative? (some '+') = some false), hseconds]
      simp only [Bool.false_eq_true, ↓reduceIte, Option.some.injEq, Prod.mk.injEq, and_true]
      omega

theorem noBlank_offsetText (offset : Int) : NoBlank (offsetText offset) := by
  have hdigits (n : Nat) := (allDigits_paddedText 2 n).noBlank
  unfold offsetText
  split
  · exact noBlank_cons.mpr ⟨rfl, List.forall_mem_nil _⟩
  · rw [List.cons_append, noBlank_cons, noBlank_append, noBlank_cons]
    refine ⟨?_, hdigits _, rfl, hdigits _⟩
    split <;> rfl

theorem noBlank_fractionText (nanos : Nat) : NoBlank (TimeOfDay.fractionText nanos) := by
  have hdigits (width n : Nat) := (allDigits_paddedText width n).noBlank
  unfold TimeOfDay.fractionText
  split
  · exact List.forall_mem_nil _
  split
  · exact noBlank_cons.mpr ⟨rfl, hdigits _ _⟩
  split
  · exact noBlank_cons.mpr ⟨rfl, hdigits _ _⟩
  · exact noBlank_cons.mpr ⟨rfl, hdigits _ _⟩

theorem noBlank_yearText (year : Int) : NoBlank (yearText year) := by
  have hdigits (n : Nat) := (allDigits_paddedText 4 n).noBlank
  unfold yearText
  split
  · exact hdigits _
  · refine noBlank_cons.mpr ⟨?_, hdigits _⟩
    split <;> rfl

theorem readFourDigits?_paddedText {n : Nat} (hn : n < 10000) (rest : List Char) :
    readFourDigits? (paddedText 4 n ++ rest) = some (n, rest) := by
  have hlength : (paddedText 4 n).length = 4 := length_paddedText (by decide) hn
  have hdigits : (paddedText 4 n).all Char.isDigit = true :=
    List.all_eq_true.mpr (allDigits_paddedText 4 n)
  have hdrop : (paddedText 4 n ++ rest).drop 4 = rest := List.drop_left' hlength
  simp only [readFourDigits?, List.take_left' hlength, hlength, hdigits, hdrop,
    digitsValue_paddedText, decide_true, Bool.and_self, ↓reduceIte]

/-- A year with a sign is read to its last digit. -/
theorem readYear?_yearText {year : Int} (hyear : ¬ (0 ≤ year ∧ year ≤ 9999)) {rest : List Char}
    (hrest : NoDigitNext rest) : readYear? (yearText year ++ rest) = some (year, rest) := by
  -- After a sign the year may take the whole text, and it ends with its digits.
  have hdigits := allDigits_paddedText 4 year.natAbs
  have hread : readNumber? (paddedText 4 year.natAbs ++ rest).length
      (paddedText 4 year.natAbs ++ rest) = some (year.natAbs, rest) := by
    have htake : ((paddedText 4 year.natAbs ++ rest).take
        (paddedText 4 year.natAbs ++ rest).length).takeWhile Char.isDigit =
          paddedText 4 year.natAbs := by
      rw [List.take_length, hdigits.takeWhile_append hrest]
    rw [readNumber?_eq htake (paddedText_ne_nil _ _), digitsValue_paddedText]
  rw [yearText, if_neg hyear]
  split
  all_goals
    simp only [List.cons_append, readYear?, hread, Option.map_some, Option.some.injEq,
      Prod.mk.injEq, and_true]
    omega

/-- No blanks are taken off in front of a sign. -/
theorem readYear?_trimStart {year : Int} (hyear : ¬ (0 ≤ year ∧ year ≤ 9999))
    (rest : List Char) :
    readYear? (trimStart (yearText year ++ '-' :: rest)) = some (year, '-' :: rest) := by
  have hsign : trimStart (yearText year ++ '-' :: rest) = yearText year ++ '-' :: rest := by
    rw [yearText, if_neg hyear]
    split <;> rfl
  rw [hsign]
  exact readYear?_yearText hyear (by intro c hc; cases hc; rfl)

namespace Date

theorem month_lt_hundred (d : Date) : d.month < 100 := by
  have h := d.month_mem
  omega

theorem monthLength_le (year : Int) (month : Nat) : monthLength year month ≤ 31 := by
  have hmax (leap : Bool) : ∀ n ∈ monthLengths leap, n ≤ 31 := by cases leap <;> decide
  unfold monthLength
  split
  · next n h => exact hmax _ n (List.mem_of_getElem? h)
  · omega

theorem day_lt_hundred (d : Date) : d.day < 100 := by
  have h := d.day_mem
  have hlength := monthLength_le d.year d.month
  omega

end Date

namespace TimeOfDay

theorem hour_lt_hundred (t : TimeOfDay) : t.hour < 100 := Nat.lt_trans t.hour_lt (by decide)

theorem minute_lt_hundred (t : TimeOfDay) : t.minute < 100 := Nat.lt_trans t.minute_lt (by decide)

theorem second_lt_hundred (t : TimeOfDay) : t.second < 100 :=
  Nat.lt_of_le_of_lt t.second_le (by decide)

end TimeOfDay

namespace Layout

theorem read?_day {written : List Char} {year : Int} {month day : Nat}
    (hyear : ∀ rest, readYear? (trimStart (written ++ '-' :: rest)) = some (year, '-' :: rest))
    (hmonth : month < 100) (hday : day < 100) (rest : List Char) (items : Layout)
    (p : TimeParts) :
    read? (written ++ '-' :: paddedText 2 month ++ '-' :: paddedText 2 day ++ rest)
        (Layout.day ++ items) p =
      read? rest items { p with year := year, month := month, day := day } := by
  have hmonthText := readNumber?_paddedText (by decide : 0 < 2) hmonth
  have hdayText := readNumber?_paddedText (by decide : 0 < 2) hday
  have hdash (rest : List Char) : stripLead? ['-'] ('-' :: rest) = some rest := rfl
  simp only [Layout.day, List.append_assoc, List.cons_append, List.nil_append, read?,
    LayoutItem.read?, hyear, hdash, trimStart_paddedText, hmonthText, hdayText, Option.map_some]

theorem read?_clock {hour minute second nanos : Nat} (hhour : hour < 100) (hminute : minute < 100)
    (hsecond : second < 100) {fraction rest : List Char}
    (hfraction : readFraction? (fraction ++ rest) = some (nanos, rest)) (items : Layout)
    (p : TimeParts) :
    read? (paddedText 2 hour ++ ':' :: paddedText 2 minute ++ ':' :: paddedText 2 second ++
        fraction ++ rest) (clock ++ items) p =
      read? rest items
        { p with hour := hour, minute := minute, second := second, nanos := nanos } := by
  have hhourText := readNumber?_paddedText (by decide : 0 < 2) hhour
  have hminuteText := readNumber?_paddedText (by decide : 0 < 2) hminute
  have hsecondText := readNumber?_paddedText (by decide : 0 < 2) hsecond
  have hcolon (rest : List Char) : stripLead? [':'] (':' :: rest) = some rest := rfl
  simp only [clock, List.append_assoc, List.cons_append, List.nil_append, read?,
    LayoutItem.read?, trimStart_paddedText, hhourText, hminuteText, hsecondText, hfraction, hcolon,
    Option.map_some]

end Layout

/-- In RFC 3339 it is left to the zone whether a text with all its fields is read. -/
theorem readRfc3339?_written {year month day hour minute second nanos : Nat} {mark : Char}
    {fraction zone : List Char} (hyear : year < 10000) (hmonth : month < 100) (hday : day < 100)
    (hhour : hour < 100) (hminute : minute < 100) (hsecond : second < 100)
    (hmark : mark = 'T' ∨ mark = ' ')
    (hfraction : readFraction? (fraction ++ zone) = some (nanos, zone)) :
    readRfc3339? (paddedText 4 year ++ '-' :: paddedText 2 month ++ '-' :: paddedText 2 day ++
        mark :: (paddedText 2 hour ++ ':' :: paddedText 2 minute ++ ':' :: paddedText 2 second ++
          fraction) ++ zone) =
      (readZone? zone).bind fun offset =>
        if offset.2.isEmpty then
          some ⟨year, month, day, hour, minute, second, nanos, offset.1⟩
        else none := by
  have hfour := readFourDigits?_paddedText hyear
  have hmonthText := readTwo?_paddedText hmonth
  have hdayText := readTwo?_paddedText hday
  have hhourText := readTwo?_paddedText hhour
  have hminuteText := readTwo?_paddedText hminute
  have hsecondText := readTwo?_paddedText hsecond
  have hcolon (rest : List Char) : stripLead? [':'] (':' :: rest) = some rest := rfl
  have hdash (rest : List Char) : stripLead? ['-'] ('-' :: rest) = some rest := rfl
  have hmarkText (rest : List Char) : readDayMark? (mark :: rest) = some rest := by
    rcases hmark with rfl | rfl <;> rfl
  rw [readRfc3339?_eq]
  simp only [List.append_assoc, List.cons_append, hfour, hmonthText, hdayText, hhourText,
    hminuteText, hsecondText, hfraction, hcolon, hdash, hmarkText, Option.bind_some]

namespace Timestamp

/-- The numbers that a timestamp is written with. -/
def parts (t : Timestamp) : TimeParts :=
  ⟨t.date.year, t.date.month, t.date.day, t.time.hour, t.time.minute, t.time.second, t.time.nanos,
    t.offset⟩

/-- Years that are written with four digits. -/
def HasPlainYear (t : Timestamp) : Prop := 0 ≤ t.date.year ∧ t.date.year ≤ 9999

instance (t : Timestamp) : Decidable t.HasPlainYear := inferInstanceAs (Decidable (_ ∧ _))

theorem timestamp?_parts {t : Timestamp} (h : t.Readable) : t.parts.timestamp? = some t := by
  have hdate : Date.of? t.date.year t.date.month t.date.day = some t.date := by
    simp only [Date.of?, t.date.month_mem, t.date.day_mem, and_self, ↓reduceDIte]
  have htime :
      TimeOfDay.of? t.time.hour t.time.minute t.time.second t.time.nanos = some t.time := by
    simp only [TimeOfDay.of?, t.time.hour_lt, t.time.minute_lt, t.time.second_le, t.time.nanos_lt,
      and_self, ↓reduceDIte]
  simp only [TimeParts.timestamp?, parts, hdate, htime, Option.bind_eq_bind, Option.bind_some,
    h.supported]

theorem readZone?_offsetText {t : Timestamp} (h : t.Readable) :
    readZone? (offsetText t.offset) = some (t.offset, []) := by
  by_cases hzero : t.offset = 0
  · rw [hzero]
    rfl
  · have hsigned : readZone? (offsetText t.offset) =
        readOffset? (stripLead? [':']) (offsetText t.offset) := by
      rw [offsetText, if_neg hzero]
      split <;> rfl
    rw [hsigned]
    exact readOffset?_offsetText hzero t.offset_lt h.minutes

theorem readRfc3339?_text {t : Timestamp} (h : t.Readable) (hyear : t.HasPlainYear) :
    readRfc3339? t.text = some t.parts := by
  have hwhole : (t.date.year.toNat : Int) = t.date.year := Int.toNat_of_nonneg hyear.1
  have hdigits : t.date.year.toNat < 10000 := by
    have hlast := hyear.2
    omega
  have hplain : yearText t.date.year = paddedText 4 t.date.year.toNat := if_pos hyear
  have hnanos := readFraction?_fractionText t.time.nanos_lt (noDigitNext_offsetText t.offset)
    (head?_offsetText_ne t.offset)
  have hread := readRfc3339?_written hdigits t.date.month_lt_hundred t.date.day_lt_hundred
    t.time.hour_lt_hundred t.time.minute_lt_hundred t.time.second_lt_hundred (.inl rfl) hnanos
  rw [text, Date.text, TimeOfDay.text, hplain, hread, readZone?_offsetText h, hwhole]
  rfl

theorem noBlank_text (t : Timestamp) : NoBlank t.text := by
  have hdigits (n : Nat) := (allDigits_paddedText 2 n).noBlank
  have hmark (c : Char) (hc : isBlank c = false) (s : List Char) :
      NoBlank (c :: s) ↔ NoBlank s := by simp only [noBlank_cons, hc, true_and]
  simp only [text, Date.text, TimeOfDay.text, noBlank_append, noBlank_yearText, hdigits,
    noBlank_fractionText, noBlank_offsetText, hmark 'T' rfl, hmark '-' rfl, hmark ':' rfl, and_self]

theorem mem_text (t : Timestamp) : 'T' ∈ t.text := by
  simp [text]

/-- A text with a `T` in it is none of the dates that stand for a missing one. -/
theorem ofText?_text (t : Timestamp) :
    ofText? t.text = (readRfc3339? t.text >>= TimeParts.timestamp?).or
      (Layout.known.findSome? fun layout =>
        layout.read? t.text {} >>= TimeParts.timestamp?) := by
  have hzero : zeroDates.any (·.toList == t.text) = false := by
    have hfree : ∀ zero ∈ zeroDates, 'T' ∉ zero.toList := by decide
    rw [List.any_eq_false]
    intro zero hmem heq
    apply hfree zero hmem
    rw [beq_iff_eq.mp heq]
    exact mem_text t
  have hempty : t.text.isEmpty = false := by
    rw [List.isEmpty_eq_false_iff]
    exact List.ne_nil_of_mem (mem_text t)
  simp only [ofText?, (noBlank_text t).trim, hzero, hempty, Bool.or_self, Bool.false_eq_true,
    ↓reduceIte]
  cases readRfc3339? t.text >>= TimeParts.timestamp? <;> rfl

theorem ofText?_text_of_plainYear {t : Timestamp} (h : t.Readable) (hyear : t.HasPlainYear) :
    ofText? t.text = some t := by
  rw [ofText?_text, readRfc3339?_text h hyear]
  simp only [Option.bind_eq_bind, Option.bind_some, timestamp?_parts h, Option.some_or]

/-- No layout has both a `T` and an offset, and the one with a `T` leaves the offset over. -/
theorem read?_known {t : Timestamp} (hyear : ¬ t.HasPlainYear) :
    ∀ layout ∈ Layout.known, layout.read? t.text {} = none := by
  have hday (items : Layout) : Layout.read? t.text (Layout.day ++ items) {} =
      Layout.read? ('T' :: t.time.text ++ offsetText t.offset) items
        { year := t.date.year, month := t.date.month, day := t.date.day } := by
    rw [text, List.append_assoc]
    exact Layout.read?_day (readYear?_trimStart hyear) t.date.month_lt_hundred
      t.date.day_lt_hundred _ items {}
  have hclock (p : TimeParts) :
      Layout.read? (t.time.text ++ offsetText t.offset) Layout.clock p = _ :=
    Layout.read?_clock t.time.hour_lt_hundred t.time.minute_lt_hundred t.time.second_lt_hundred
      (readFraction?_fractionText t.time.nanos_lt (noDigitNext_offsetText t.offset)
        (head?_offsetText_ne t.offset)) [] p
  simp only [Layout.known, List.forall_mem_cons]
  -- All but the third layout stop at the mark, where they want an hour or the end.
  refine ⟨?_, ?_, ?_, ?_, ?_, List.forall_mem_nil _⟩
  · rw [List.append_assoc, hday]
    rfl
  · rw [hday]
    rfl
  · rw [hday]
    simp only [Layout.read?, LayoutItem.read?, List.cons_append, stripLead?, ↓reduceIte,
      Option.map_some, hclock, offsetText_ne_nil, Bool.false_eq_true]
  · rw [hday]
    rfl
  · have hend := hday []
    rw [List.append_nil] at hend
    rw [hend]
    rfl

theorem text_of_signedYear {t : Timestamp} (hyear : ¬ t.HasPlainYear) :
    ∃ sign rest, sign.isDigit = false ∧ t.text = sign :: rest := by
  have hsigned : yearText t.date.year = _ := if_neg hyear
  rw [text, Date.text, hsigned]
  refine ⟨_, _, ?_, rfl⟩
  split <;> rfl

theorem readRfc3339?_text_of_signedYear {t : Timestamp} (hyear : ¬ t.HasPlainYear) :
    readRfc3339? t.text = none := by
  have hfour : readFourDigits? t.text = none := by
    obtain ⟨sign, rest, hsign, htext⟩ := text_of_signedYear hyear
    have hall : (t.text.take 4).all Char.isDigit = false := by
      rw [htext, List.take_succ_cons, List.all_cons, hsign, Bool.false_and]
    simp only [readFourDigits?, hall, Bool.and_false, Bool.false_eq_true, ↓reduceIte]
  rw [readRfc3339?_eq, hfour]
  rfl

theorem ofText?_text_of_signedYear {t : Timestamp} (hyear : ¬ t.HasPlainYear) :
    ofText? t.text = none := by
  rw [ofText?_text, readRfc3339?_text_of_signedYear hyear]
  refine List.findSome?_eq_none_iff.mpr fun layout hlayout => ?_
  rw [read?_known hyear layout hlayout]
  rfl

end Timestamp

namespace Rfc3339

def IsFraction (s : List Char) : Prop :=
  s = [] ∨ ∃ digits, digits ≠ [] ∧ AllDigits digits ∧ s = '.' :: digits

def IsZone (s : List Char) : Prop :=
  s = ['Z'] ∨ ∃ sign hours minutes, (sign = '+' ∨ sign = '-') ∧ hours < 24 ∧ minutes < 60 ∧
    s = sign :: paddedText 2 hours ++ ':' :: paddedText 2 minutes

/-- The grammar of RFC 3339: a day of the calendar whose year has four digits, a time of day with
any number of digits of a second, and where it is that time. -/
def IsDateTime (s : List Char) : Prop :=
  ∃ (date : Date) (hour minute second : Nat) (fraction zone : List Char),
    (0 ≤ date.year ∧ date.year ≤ 9999) ∧ (hour < 24 ∧ minute < 60 ∧ second ≤ 60) ∧
      IsFraction fraction ∧ IsZone zone ∧
      s = paddedText 4 date.year.toNat ++ '-' :: paddedText 2 date.month ++
        '-' :: paddedText 2 date.day ++ 'T' :: paddedText 2 hour ++ ':' :: paddedText 2 minute ++
        ':' :: paddedText 2 second ++ fraction ++ zone

theorem isFraction_fractionText (nanos : Nat) : IsFraction (TimeOfDay.fractionText nanos) := by
  have hpoint (width n : Nat) : IsFraction ('.' :: paddedText width n) :=
    .inr ⟨_, paddedText_ne_nil width n, allDigits_paddedText width n, rfl⟩
  unfold TimeOfDay.fractionText
  split
  · exact .inl rfl
  split
  · exact hpoint _ _
  split
  · exact hpoint _ _
  · exact hpoint _ _

theorem isZone_offsetText {offset : Int} (h : offset.natAbs < 86400) :
    IsZone (offsetText offset) := by
  unfold offsetText
  split
  · exact .inl rfl
  · refine .inr ⟨_, offset.natAbs / 3600, offset.natAbs / 60 % 60, ?_, by omega, by omega, rfl⟩
    split
    · exact .inr rfl
    · exact .inl rfl

/-- A timestamp is written in the grammar exactly if its year needs no sign. -/
theorem isDateTime_text (t : Timestamp) : IsDateTime t.text ↔ t.HasPlainYear := by
  constructor
  · intro h
    obtain ⟨date, _, _, _, _, _, -, -, -, -, htext⟩ := h
    by_contra hyear
    -- The grammar starts with a digit, a year outside its range with a sign.
    obtain ⟨sign, rest, hsign, hsigned⟩ := Timestamp.text_of_signedYear hyear
    have hdigits := allDigits_paddedText 4 date.year.toNat
    have hne := paddedText_ne_nil 4 date.year.toNat
    cases hs : paddedText 4 date.year.toNat with
    | nil => exact hne hs
    | cons c cs =>
        rw [hs] at hdigits htext
        rw [hsigned] at htext
        have hc : sign = c := (List.cons.inj htext).1
        have hdigit := hdigits c (List.mem_cons_self ..)
        rw [← hc, hsign] at hdigit
        cases hdigit
  · intro hyear
    refine ⟨t.date, t.time.hour, t.time.minute, t.time.second, _, _, hyear,
      ⟨t.time.hour_lt, t.time.minute_lt, t.time.second_le⟩, isFraction_fractionText t.time.nanos,
      isZone_offsetText t.offset_lt, ?_⟩
    have hplain : yearText t.date.year = _ := if_pos hyear
    simp only [Timestamp.text, Date.text, TimeOfDay.text, hplain, List.append_assoc,
      List.cons_append]

end Rfc3339

namespace Timestamp

/-- The text of a timestamp that was read is read as that timestamp if its year needs no sign,
and as none otherwise. -/
theorem ofJson?_text {v : Json} {t : Timestamp} (h : ofJson? v = some t) :
    ofJson? (.str (String.ofList t.text)) = if t.HasPlainYear then some t else none := by
  have htext : ofJson? (.str (String.ofList t.text)) = ofText? t.text := by
    rw [ofJson?, String.toList_ofList]
  rw [htext]
  split
  · next hyear => exact ofText?_text_of_plainYear (readable_ofJson? h) hyear
  · next hyear => exact ofText?_text_of_signedYear hyear

theorem normalize_of_some {v : Json} {t : Timestamp} (h : ofJson? v = some t) :
    normalize v = .str (String.ofList t.text) := by
  rw [normalize, h]

/-- What is normalized is the text of the timestamp that was read. Where its year needs no sign
the text is in RFC 3339, stands for the same timestamp and is its own normal form; where it
needs one the text is not in RFC 3339, and is not read again. -/
theorem normalize_stable {v : Json} {t : Timestamp} (h : ofJson? v = some t) :
    normalize v = .str (String.ofList t.text) ∧
      (t.HasPlainYear →
        ofJson? (normalize v) = some t ∧ normalize (normalize v) = normalize v ∧
          Rfc3339.IsDateTime t.text) ∧
      (¬ t.HasPlainYear →
        ofJson? (normalize v) = none ∧ normalize (normalize v) = .null ∧
          ¬ Rfc3339.IsDateTime t.text) := by
  have hnormal := normalize_of_some h
  have hagain := ofJson?_text h
  rw [hnormal]
  refine ⟨rfl, ?_, ?_⟩
  · intro hyear
    rw [if_pos hyear] at hagain
    exact ⟨hagain, normalize_of_some hagain, (Rfc3339.isDateTime_text t).mpr hyear⟩
  · intro hyear
    rw [if_neg hyear] at hagain
    refine ⟨hagain, ?_, fun htext => hyear ((Rfc3339.isDateTime_text t).mp htext)⟩
    rw [normalize, hagain]

/-- A leap second with its fraction, at an offset. -/
theorem normalize_stable_leapSecond :
    ∃ t, ofJson? (.str "2016-12-31 18:59:60.5 -0500") = some t ∧ t.HasPlainYear ∧
      t.subsecond = 1500000000 ∧
      ofJson? (normalize (.str "2016-12-31 18:59:60.5 -0500")) = some t := by
  have hread : (ofJson? (.str "2016-12-31 18:59:60.5 -0500")).any fun t =>
      decide t.HasPlainYear && t.subsecond == 1500000000 := by decide +kernel
  obtain ⟨t, ht, hfacts⟩ := Option.any_eq_true _ _ |>.mp hread
  rw [Bool.and_eq_true, decide_eq_true_eq, beq_iff_eq] at hfacts
  exact ⟨t, ht, hfacts.1, hfacts.2, ((normalize_stable ht).2.1 hfacts.1).1⟩

/-- The first second of the year 10000, and the same second in a layout with a blank. -/
theorem normalize_year10000 :
    normalize (.int 253402300800) = .str "+10000-01-01T00:00:00Z" ∧
      normalize (.str "+10000-01-01T00:00:00Z") = .null ∧
      ofJson? (.str "+10000-01-01 00:00:00+00:00") = ofJson? (.int 253402300800) := by
  refine ⟨rfl, rfl, ?_⟩
  decide +kernel

end Timestamp

end RowShape
