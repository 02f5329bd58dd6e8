/-!
The proleptic Gregorian calendar, with a year zero and negative years. Days are
counted from 1 January of the year 1.
-/

namespace RowShape

def isLeap (year : Int) : Bool :=
  year % 4 == 0 && (year % 100 != 0 || year % 400 == 0)

def monthLengths (leap : Bool) : List Nat :=
  [31, if leap then 29 else 28, 31, 30, 31, 30, 31, 31, 30, 31, 30, 31]

def monthLength (year : Int) (month : Nat) : Nat :=
  match (monthLengths (isLeap year))[month - 1]? with
  | some n => n
  | none => 0

def yearLength (year : Int) : Nat := if isLeap year then 366 else 365

structure Date where
  year : Int
  month : Nat
  day : Nat
  month_mem : 1 ≤ month ∧ month ≤ 12
  day_mem : 1 ≤ day ∧ day ≤ monthLength year month
deriving DecidableEq, Repr

namespace Date

def of? (year : Int) (month day : Nat) : Option Date :=
  if hm : 1 ≤ month ∧ month ≤ 12 then
    if hd : 1 ≤ day ∧ day ≤ monthLength year month then some ⟨year, month, day, hm, hd⟩
    else none
  else none

def daysBeforeYear (year : Int) : Int :=
  365 * (year - 1) + (year - 1) / 4 - (year - 1) / 100 + (year - 1) / 400

def daysIn : List Nat → Nat
  | [] => 0
  | n :: rest => n + daysIn rest

def dayNumber (d : Date) : Int :=
  daysBeforeYear d.year + daysIn ((monthLengths (isLeap d.year)).take (d.month - 1)) + (d.day - 1)

/-- The month in which a day falls, counting months from `month`, and the day within it,
counted from zero. -/
def monthAndDay : List Nat → Nat → Nat → Nat × Nat
  | [], month, day => (month, day)
  | n :: rest, month, day =>
    if day < n then (month, day) else monthAndDay rest (month + 1) (day - n)

/-- The year and the day within it, counted from zero: cycles of 400, 100, 4 and 1 years,
where the last century of 400 years and the last year of 4 are one day longer. -/
def yearAndDay (dayNumber : Int) : Int × Nat :=
  let era := dayNumber / 146097
  let inEra := (dayNumber % 146097).toNat
  let century := min 3 (inEra / 36524)
  let inCentury := inEra - 36524 * century
  let inCycle := inCentury % 1461
  let year := min 3 (inCycle / 365)
  (400 * era + (100 * century + 4 * (inCentury / 1461) + year + 1 : Nat), inCycle - 365 * year)

theorem yearAndDay_lt (n : Int) : (yearAndDay n).2 < yearLength (yearAndDay n).1 := by
  simp only [yearAndDay, yearLength, isLeap, Bool.and_eq_true, Bool.or_eq_true, beq_iff_eq,
    bne_iff_ne, ne_eq]
  split <;> omega

theorem monthAndDay_mem (lengths : List Nat) (month day : Nat) (h : day < daysIn lengths) :
    ∃ n, month ≤ (monthAndDay lengths month day).1
      ∧ lengths[(monthAndDay lengths month day).1 - month]? = some n
      ∧ (monthAndDay lengths month day).2 < n := by
  induction lengths generalizing month day with
  | nil => exact absurd h (Nat.not_lt_zero day)
  | cons n rest ih =>
    by_cases hd : day < n
    · exact ⟨n, by simp [monthAndDay, hd]⟩
    · obtain ⟨k, hle, hk, hlt⟩ := ih (month + 1) (day - n) (by simp only [daysIn] at h; omega)
      refine ⟨k, ?_⟩
      simp only [monthAndDay, hd, if_false]
      refine ⟨by omega, ?_, hlt⟩
      rw [show (monthAndDay rest (month + 1) (day - n)).1 - month
        = (monthAndDay rest (month + 1) (day - n)).1 - (month + 1) + 1 by omega]
      simpa using hk

theorem daysIn_monthLengths (year : Int) :
    daysIn (monthLengths (isLeap year)) = yearLength year := by
  unfold yearLength
  cases isLeap year <;> rfl

/-- Within a year, the month and day of a day are those of the calendar. -/
theorem monthAndDay_valid (year : Int) (day : Nat) (h : day < yearLength year) :
    (monthAndDay (monthLengths (isLeap year)) 1 day).1 ≤ 12
      ∧ 1 ≤ (monthAndDay (monthLengths (isLeap year)) 1 day).1
      ∧ (monthAndDay (monthLengths (isLeap year)) 1 day).2 + 1
        ≤ monthLength year (monthAndDay (monthLengths (isLeap year)) 1 day).1 := by
  obtain ⟨n, hle, hn, hlt⟩ :=
    monthAndDay_mem (monthLengths (isLeap year)) 1 day (by rwa [daysIn_monthLengths])
  have hlen := (List.getElem?_eq_some_iff.mp hn).1
  have h12 : (monthLengths (isLeap year)).length = 12 := by rfl
  refine ⟨by omega, hle, ?_⟩
  simp only [monthLength, hn]
  omega

def ofDayNumber (n : Int) : Date :=
  have h := monthAndDay_valid (yearAndDay n).1 (yearAndDay n).2 (yearAndDay_lt n)
  { year := (yearAndDay n).1
    month := (monthAndDay (monthLengths (isLeap (yearAndDay n).1)) 1 (yearAndDay n).2).1
    day := (monthAndDay (monthLengths (isLeap (yearAndDay n).1)) 1 (yearAndDay n).2).2 + 1
    month_mem := ⟨h.2.1, h.1⟩
    day_mem := ⟨by omega, h.2.2⟩ }

end Date

end RowShape
