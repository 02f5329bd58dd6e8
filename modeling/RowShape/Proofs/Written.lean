import RowShape.Proofs.Timestamps

/-!
Date-times as they are written in the layouts of databases: their fields, how much of them is
written and with which marks, and the one text that stands for all that say the same.
-/

namespace RowShape

namespace Date

theorem daysIn_take_le (lengths : List Nat) (n : Nat) :
    daysIn (lengths.take n) ≤ daysIn lengths := by
  induction lengths generalizing n with
  | nil => rw [List.take_nil]
  | cons length rest ih =>
      cases n with
      | zero => exact Nat.zero_le _
      | succ n =>
          have hrest := ih n
          rw [List.take_succ_cons, daysIn, daysIn]
          omega

/-- A day is within 400 days of the first day of its year. -/
theorem dayNumber_bounds (d : Date) :
    daysBeforeYear d.year ≤ d.dayNumber ∧ d.dayNumber < daysBeforeYear d.year + 400 := by
  have hmonths := daysIn_take_le (monthLengths (isLeap d.year)) (d.month - 1)
  have hyear : yearLength d.year ≤ 366 := by
    unfold yearLength
    split <;> omega
  have hlength := monthLength_le d.year d.month
  have hday := d.day_mem
  rw [daysIn_monthLengths] at hmonths
  unfold dayNumber
  omega

theorem year_ofDayNumber_bounds {n : Int} (hlow : -1000 ≤ n) (hhigh : n ≤ 4000000) :
    -1000 ≤ (ofDayNumber n).year ∧ (ofDayNumber n).year ≤ 20000 := by
  simp only [ofDayNumber, yearAndDay]
  omega

end Date

namespace Timestamp

/-- Dates with a year of four digits are supported, here and in UTC. -/
theorem readable_of_plainYear {t : Timestamp} (hyear : t.HasPlainYear)
    (hminutes : t.offset.natAbs % 60 = 0) : t.Readable := by
  refine ⟨hminutes, ?_⟩
  obtain ⟨hfirst, hlast⟩ := hyear
  have hday := t.date.dayNumber_bounds
  have hoffset := t.offset_lt
  have hhour := t.time.hour_lt
  have hminute := t.time.minute_lt
  have hlocal : supportsYear t.date.year = true := by
    rw [supportsYear, firstYear, lastYear, Bool.and_eq_true, decide_eq_true_eq, decide_eq_true_eq]
    omega
  have hutc := Date.year_ofDayNumber_bounds (n := t.unixSeconds / 86400 + 719162)
    (by simp only [unixSeconds, TimeOfDay.seconds, Date.daysBeforeYear] at hday ⊢; omega)
    (by simp only [unixSeconds, TimeOfDay.seconds, Date.daysBeforeYear] at hday ⊢; omega)
  have hutcYear : supportsYear (Date.ofDayNumber (t.unixSeconds / 86400 + 719162)).year = true := by
    rw [supportsYear, firstYear, lastYear, Bool.and_eq_true, decide_eq_true_eq, decide_eq_true_eq]
    omega
  rw [of?, dif_pos hoffset]
  simp only [hlocal, hutcYear, Bool.and_self, ↓reduceIte]

end Timestamp

/-- The fields of a date-time as they are written. Each but the fraction fills its width, and
may be out of its range. -/
structure WrittenFields where
  year : Nat
  month : Nat
  day : Nat
  hour : Nat
  minute : Nat
  second : Nat
  fraction : List Char
  year_lt : year < 10000
  month_lt : month < 100
  day_lt : day < 100
  hour_lt : hour < 100
  minute_lt : minute < 100
  second_lt : second < 100
  fraction_digits : AllDigits fraction
  fraction_length : fraction.length ≤ 9

/-- What stands between the day and the time of day. -/
inductive DayMark where
  | letter | blank

def DayMark.char : DayMark → Char
  | .letter => 'T'
  | .blank => ' '

inductive WrittenZone where
  | unmarked | utc
  | offset (negative : Bool) (hours : Fin 24) (minutes : Fin 60)

/-- How much of a date-time is written. -/
inductive WrittenForm where
  | day | minutes
  | seconds (mark : DayMark) (zone : WrittenZone)

namespace WrittenZone

def text : WrittenZone → List Char
  | unmarked => []
  | utc => ['Z']
  | offset negative hours minutes =>
    (if negative then '-' else '+') :: paddedText 2 hours ++ ':' :: paddedText 2 minutes

/-- The seconds east of UTC, which is also where a text without a zone is. -/
def seconds : WrittenZone → Int
  | unmarked | utc => 0
  | offset negative hours minutes =>
    if negative then -((hours * 3600 + minutes * 60 : Nat) : Int)
    else (hours * 3600 + minutes * 60 : Nat)

/-- `Z` at UTC, and every other zone as it is written. -/
def normalText (zone : WrittenZone) : List Char :=
  if zone.seconds = 0 then ['Z'] else zone.text

theorem seconds_lt (zone : WrittenZone) : zone.seconds.natAbs < 86400 := by
  cases zone with
  | unmarked | utc => decide
  | offset negative hours minutes =>
      simp only [seconds]
      split <;> omega

theorem seconds_mod (zone : WrittenZone) : zone.seconds.natAbs % 60 = 0 := by
  cases zone with
  | unmarked | utc => decide
  | offset negative hours minutes =>
      simp only [seconds]
      split <;> omega

theorem offsetText_seconds (zone : WrittenZone) : offsetText zone.seconds = zone.normalText := by
  by_cases hzero : zone.seconds = 0
  · rw [offsetText, if_pos hzero, normalText, if_pos hzero]
  rw [offsetText, if_neg hzero, normalText, if_neg hzero]
  cases zone with
  | unmarked | utc => exact absurd rfl hzero
  | offset negative hours minutes =>
      have hminutes := minutes.isLt
      have hhoursText : ((hours : Nat) * 3600 + minutes * 60) / 3600 = hours := by omega
      have hminutesText : ((hours : Nat) * 3600 + minutes * 60) / 60 % 60 = minutes := by omega
      cases negative with
      | true =>
          simp only [seconds, ↓reduceIte] at hzero ⊢
          rw [if_pos (by omega), Int.natAbs_neg, Int.natAbs_natCast, hhoursText, hminutesText]
          rfl
      | false =>
          simp only [seconds, Bool.false_eq_true, ↓reduceIte] at hzero ⊢
          rw [if_neg (by omega), Int.natAbs_natCast, hhoursText, hminutesText]
          rfl

theorem noBlank_text (zone : WrittenZone) : NoBlank zone.text := by
  have hdigits (n : Nat) := (allDigits_paddedText 2 n).noBlank
  cases zone with
  | unmarked | utc => decide
  | offset negative hours minutes =>
      rw [text, List.cons_append, noBlank_cons, noBlank_append, noBlank_cons]
      refine ⟨?_, hdigits _, rfl, hdigits _⟩
      cases negative <;> rfl

theorem noDigitNext_text (zone : WrittenZone) : NoDigitNext zone.text := by
  intro c hc
  rcases zone with _ | _ | ⟨_ | _, hours, minutes⟩
  · cases hc
  all_goals
    cases hc
    rfl

theorem head?_text_ne (zone : WrittenZone) : zone.text.head? ≠ some '.' := by
  rcases zone with _ | _ | ⟨_ | _, hours, minutes⟩
  all_goals
    intro h
    cases h

end WrittenZone

namespace WrittenFields

variable (f : WrittenFields)

def dayText : List Char :=
  paddedText 4 f.year ++ '-' :: paddedText 2 f.month ++ '-' :: paddedText 2 f.day

def clockText (fraction : List Char) : List Char :=
  paddedText 2 f.hour ++ ':' :: paddedText 2 f.minute ++ ':' :: paddedText 2 f.second ++
    pointed fraction

def text : WrittenForm → List Char
  | .day => f.dayText
  | .minutes => f.dayText ++ ' ' :: (paddedText 2 f.hour ++ ':' :: paddedText 2 f.minute)
  | .seconds mark zone => f.dayText ++ mark.char :: f.clockText f.fraction ++ zone.text

/-- The one text that stands for all that say the same, with its fraction in the digits
`written`. -/
def normalText (written : List Char) : WrittenForm → List Char
  | .day => f.dayText ++ "T00:00:00Z".toList
  | .minutes =>
    f.dayText ++ 'T' :: (paddedText 2 f.hour ++ ':' :: paddedText 2 f.minute) ++ ":00Z".toList
  | .seconds _ zone => f.dayText ++ 'T' :: f.clockText written ++ zone.normalText

def IsDay : Prop :=
  (1 ≤ f.month ∧ f.month ≤ 12) ∧ 1 ≤ f.day ∧ f.day ≤ monthLength f.year f.month

instance : Decidable f.IsDay := inferInstanceAs (Decidable (_ ∧ _))

/-- The fields that are written stand for a date-time, with seconds from 0 to 59. -/
def Stands : WrittenForm → Prop
  | .day => f.IsDay
  | .minutes => f.IsDay ∧ f.hour < 24 ∧ f.minute < 60
  | .seconds _ _ => f.IsDay ∧ f.hour < 24 ∧ f.minute < 60 ∧ f.second < 60

/-- The day that is written does not exist, or the hour or the minute does not. -/
def OutOfRange : WrittenForm → Prop
  | .day => ¬ f.IsDay
  | .minutes | .seconds _ _ => ¬ f.IsDay ∨ 24 ≤ f.hour ∨ 60 ≤ f.minute

/-- The numbers that are read. -/
def parts : WrittenForm → TimeParts
  | .day => { year := f.year, month := f.month, day := f.day }
  | .minutes =>
    { year := f.year, month := f.month, day := f.day, hour := f.hour, minute := f.minute }
  | .seconds _ zone =>
    ⟨f.year, f.month, f.day, f.hour, f.minute, f.second, nanosOf f.fraction, zone.seconds⟩

theorem text_eq_year_append (form : WrittenForm) :
    ∃ rest, f.text form = paddedText 4 f.year ++ '-' :: (paddedText 2 f.month ++ rest) := by
  cases form with
  | day | minutes | seconds mark zone =>
      simp only [text, dayText, List.append_assoc, List.cons_append]
      exact ⟨_, rfl⟩

theorem text_eq_append_last (form : WrittenForm) :
    ∃ start last, NoBlank last ∧ last ≠ [] ∧ f.text form = start ++ last := by
  have hdigits (n : Nat) := (allDigits_paddedText 2 n).noBlank
  cases form with
  | day => exact ⟨_, '-' :: paddedText 2 f.day, noBlank_cons.mpr ⟨rfl, hdigits _⟩, by simp, rfl⟩
  | minutes =>
      refine ⟨f.dayText ++ ' ' :: paddedText 2 f.hour, ':' :: paddedText 2 f.minute,
        noBlank_cons.mpr ⟨rfl, hdigits _⟩, by simp, ?_⟩
      simp only [text, List.append_assoc, List.cons_append]
  | seconds mark zone =>
      have hpointed : NoBlank (pointed f.fraction) := by
        unfold pointed
        split
        · exact List.forall_mem_nil _
        · exact noBlank_cons.mpr ⟨rfl, f.fraction_digits.noBlank⟩
      refine ⟨f.dayText ++ mark.char :: paddedText 2 f.hour ++ ':' :: paddedText 2 f.minute,
        ':' :: paddedText 2 f.second ++ pointed f.fraction ++ zone.text, ?_, by simp, ?_⟩
      · rw [noBlank_append, noBlank_append, noBlank_cons]
        exact ⟨⟨⟨rfl, hdigits _⟩, hpointed⟩, zone.noBlank_text⟩
      · simp only [text, clockText, List.append_assoc, List.cons_append]

theorem trim_text (form : WrittenForm) {before after : List Char}
    (hbefore : ∀ c ∈ before, isBlank c = true) (hafter : ∀ c ∈ after, isBlank c = true) :
    trim (before ++ f.text form ++ after) = f.text form := by
  obtain ⟨rest, hfirst⟩ := f.text_eq_year_append form
  obtain ⟨start, last, hblank, hne, hlast⟩ := f.text_eq_append_last form
  rw [hfirst] at hlast ⊢
  exact trim_between hbefore hafter (allDigits_paddedText 4 f.year).noBlank
    (paddedText_ne_nil 4 f.year) hblank hne hlast

def date (h : f.IsDay) : Date := ⟨f.year, f.month, f.day, h.1, h.2⟩

def timestamp (h : f.IsDay) (time : TimeOfDay) (zone : WrittenZone) : Timestamp :=
  ⟨f.date h, time, zone.seconds, zone.seconds_lt⟩

theorem text_timestamp (h : f.IsDay) (time : TimeOfDay) (zone : WrittenZone) :
    (f.timestamp h time zone).text = f.dayText ++ 'T' :: time.text ++ zone.normalText := by
  have hyear : yearText f.year = paddedText 4 f.year := by
    have hlt := f.year_lt
    rw [yearText, if_pos (by omega), Int.toNat_natCast]
  rw [dayText, ← hyear, ← zone.offsetText_seconds]
  rfl

theorem timestamp?_of_isDay (h : f.IsDay) (time : TimeOfDay) (zone : WrittenZone) :
    TimeParts.timestamp? ⟨f.year, f.month, f.day, time.hour, time.minute, time.second, time.nanos,
      zone.seconds⟩ = some (f.timestamp h time zone) := by
  have hplain : (f.timestamp h time zone).HasPlainYear := by
    have hlt := f.year_lt
    change (0 : Int) ≤ f.year ∧ (f.year : Int) ≤ 9999
    omega
  exact Timestamp.timestamp?_parts (Timestamp.readable_of_plainYear hplain zone.seconds_mod)

/-- Fields that stand for a date-time are read as one, and its text is the normal one. -/
theorem exists_timestamp? {form : WrittenForm} (h : f.Stands form) {written : List Char}
    (hwritten : TimeOfDay.fractionText (nanosOf f.fraction) = pointed written) :
    ∃ t, (f.parts form).timestamp? = some t ∧ t.text = f.normalText written form := by
  cases form with
  | day =>
      have hday : f.IsDay := h
      refine ⟨_, f.timestamp?_of_isDay hday .midnight .unmarked, ?_⟩
      rw [f.text_timestamp, List.append_assoc]
      rfl
  | minutes =>
      obtain ⟨hday, hhour, hminute⟩ := h
      let time : TimeOfDay := ⟨f.hour, f.minute, 0, 0, hhour, hminute, by decide, by decide⟩
      refine ⟨_, f.timestamp?_of_isDay hday time .unmarked, ?_⟩
      rw [f.text_timestamp]
      simp only [normalText, TimeOfDay.text, time, List.append_assoc, List.cons_append]
      rfl
  | seconds mark zone =>
      obtain ⟨hday, hhour, hminute, hsecond⟩ := h
      have hnanos := nanosOf_lt f.fraction_digits f.fraction_length
      let time : TimeOfDay := ⟨f.hour, f.minute, f.second, nanosOf f.fraction, hhour, hminute,
        Nat.le_of_lt hsecond, hnanos⟩
      have hclock : time.text = f.clockText written := by
        rw [clockText, ← hwritten]
        rfl
      refine ⟨_, f.timestamp?_of_isDay hday time zone, ?_⟩
      rw [f.text_timestamp, hclock]
      rfl

/-- Of a date-time that is out of range no part is taken. -/
theorem timestamp?_of_outOfRange {form : WrittenForm} (h : f.OutOfRange form) :
    (f.parts form).timestamp? = none := by
  have hdate (hday : ¬ f.IsDay) : Date.of? f.year f.month f.day = none := by
    unfold Date.of?
    split
    · next hmonth => exact dif_neg fun hd => hday ⟨hmonth, hd⟩
    · rfl
  have htime (hclock : 24 ≤ f.hour ∨ 60 ≤ f.minute) (second nanos : Nat) :
      TimeOfDay.of? f.hour f.minute second nanos = none := by
    apply dif_neg
    omega
  have hnone {year : Int} {month day hour minute second nanos : Nat} {offset : Int}
      (h : Date.of? year month day = none ∨ TimeOfDay.of? hour minute second nanos = none) :
      TimeParts.timestamp? ⟨year, month, day, hour, minute, second, nanos, offset⟩ = none := by
    rcases h with h | h
    · rw [TimeParts.timestamp?, h]
      rfl
    · simp [TimeParts.timestamp?, h]
  cases form with
  | day => exact hnone (.inl (hdate h))
  | minutes | seconds mark zone => exact hnone (h.imp hdate fun hclock => htime hclock _ _)

end WrittenFields

end RowShape
