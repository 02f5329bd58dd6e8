import RowShape.Proofs.Written

/-!
Date-times have one normal form in all layouts. Of the readers that are tried one after the
other some take a text and the others do not, and those that take it agree on its numbers.
-/

namespace RowShape

namespace WrittenZone

/-- An offset is read whatever its separator may be, if the separator leaves the minutes over. -/
theorem readOffset?_text (negative : Bool) (hours : Fin 24) (minutes : Fin 60)
    {separator : List Char → Option (List Char)}
    (hseparator : separator (':' :: paddedText 2 minutes) = some (paddedText 2 minutes)) :
    readOffset? separator (offset negative hours minutes).text =
      some ((offset negative hours minutes).seconds, []) := by
  have hhours : (hours : Nat) < 100 := by omega
  have hminus : isNegative? (some '-') = some true := rfl
  have hplus : isNegative? (some '+') = some false := rfl
  cases negative with
  | true => exact readOffset?_signed hhours minutes.isLt hseparator hminus
  | false => exact readOffset?_signed hhours minutes.isLt hseparator hplus

theorem readZone?_offset (negative : Bool) (hours : Fin 24) (minutes : Fin 60) :
    readZone? (offset negative hours minutes).text =
      some ((offset negative hours minutes).seconds, []) := by
  have hcolon (rest : List Char) : stripLead? [':'] (':' :: rest) = some rest := rfl
  rw [← readOffset?_text negative hours minutes (hcolon _)]
  cases negative <;> rfl

/-- Layouts may do without the colon, but do not read it as a part of the minutes. -/
theorem read?_offset (negative : Bool) (hours : Fin 24) (minutes : Fin 60) (p : TimeParts) :
    Layout.read? (offset negative hours minutes).text [.offset] p =
      some { p with offset := (offset negative hours minutes).seconds } := by
  have hseparator : (paddedText 2 minutes).dropWhile (fun c => c == ':' || isBlank c) =
      paddedText 2 minutes := by
    have hdigits := allDigits_paddedText 2 minutes
    cases hs : paddedText 2 minutes with
    | nil => rfl
    | cons c cs =>
        rw [hs] at hdigits
        have hc := hdigits c List.mem_cons_self
        have hcolon : c ≠ ':' := fun h => by rw [h] at hc; cases hc
        rw [List.dropWhile_cons_of_neg (by simp [hcolon, isBlank_of_isDigit hc])]
  have hread : readOffset? (fun r => some (r.dropWhile fun c => c == ':' || isBlank c))
      (offset negative hours minutes).text =
        some ((offset negative hours minutes).seconds, []) := by
    apply readOffset?_text
    rw [List.dropWhile_cons_of_pos rfl, hseparator]
  have htrim : trimStart (offset negative hours minutes).text =
      (offset negative hours minutes).text := (noBlank_text _).dropWhile
  simp only [Layout.read?, LayoutItem.read?, htrim, hread, Option.map_some, List.isEmpty_nil,
    ↓reduceIte]

end WrittenZone

/-- A year of four digits is read to its last digit. -/
theorem readYear?_paddedText {n : Nat} (hn : n < 10000) (rest : List Char) :
    readYear? (trimStart (paddedText 4 n ++ rest)) = some ((n : Int), rest) := by
  have hnumber := readNumber?_paddedText (by decide : 0 < 4) hn rest
  rw [trimStart_paddedText]
  have hdigits := allDigits_paddedText 4 n
  have hne := paddedText_ne_nil 4 n
  cases hs : paddedText 4 n with
  | nil => exact absurd hs hne
  | cons c cs =>
      rw [hs] at hdigits hnumber
      have hc := hdigits c List.mem_cons_self
      have hminus : c ≠ '-' := fun h => by rw [h] at hc; cases hc
      have hplus : c ≠ '+' := fun h => by rw [h] at hc; cases hc
      rw [List.cons_append] at hnumber ⊢
      rw [readYear?, hnumber]
      · rfl
      · exact fun _ h => hminus (List.cons.inj h).1
      · exact fun _ h => hplus (List.cons.inj h).1

namespace Layout

theorem read?_gap (width n : Nat) (rest : List Char) (items : Layout) (p : TimeParts) :
    read? (' ' :: (paddedText width n ++ rest)) (.gap :: items) p =
      read? (paddedText width n ++ rest) items p := by
  have htrim : trimStart (' ' :: (paddedText width n ++ rest)) = paddedText width n ++ rest :=
    trimStart_paddedText width n rest
  simp only [read?, LayoutItem.read?, htrim]

theorem read?_hourAndMinute {hour minute : Nat} (hhour : hour < 100) (hminute : minute < 100)
    (rest : List Char) (items : Layout) (p : TimeParts) :
    read? (paddedText 2 hour ++ ':' :: (paddedText 2 minute ++ rest))
        (.hour :: .mark ':' :: .minute :: items) p =
      read? rest items { p with hour := hour, minute := minute } := by
  have hhourText := readNumber?_paddedText (by decide : 0 < 2) hhour
  have hminuteText := readNumber?_paddedText (by decide : 0 < 2) hminute
  have hcolon (rest : List Char) : stripLead? [':'] (':' :: rest) = some rest := rfl
  simp only [read?, LayoutItem.read?, trimStart_paddedText, hhourText, hminuteText, hcolon,
    Option.map_some]

end Layout

/-- What the readers make of a text, in the order in which they are tried. -/
def readings (s : List Char) : List (Option TimeParts) :=
  readRfc3339? s :: Layout.known.map fun layout => layout.read? s {}

/-- Which of the readers take a text of some form. Most texts are taken by one of them; a text
with an offset behind a blank is taken by two. -/
def takers : WrittenForm → List Bool
  | .day => [false, false, false, false, false, true]
  | .minutes => [false, false, false, false, true, false]
  | .seconds .blank .unmarked => [false, false, true, false, false, false]
  | .seconds .letter .unmarked => [false, false, false, true, false, false]
  | .seconds _ .utc => [true, false, false, false, false, false]
  | .seconds .blank (.offset ..) => [true, true, false, false, false, false]
  | .seconds .letter (.offset ..) => [true, false, false, false, false, false]

theorem mem_takers (form : WrittenForm) : true ∈ takers form := by
  rcases form with _ | _ | ⟨_ | _, _ | _ | _⟩
  all_goals simp [takers]

/-- Readers that agree on a text read it, however many of them take it. -/
theorem findSome?_readings {p : TimeParts} {taken : List Bool} (h : true ∈ taken) :
    (taken.map fun takes => if takes then some p else none).findSome?
      (· >>= TimeParts.timestamp?) = p.timestamp? := by
  cases hp : p.timestamp? with
  | none =>
      rw [List.findSome?_eq_none_iff]
      intro reading hreading
      obtain ⟨takes, -, rfl⟩ := List.mem_map.mp hreading
      cases takes with
      | true => exact hp
      | false => rfl
  | some t =>
      induction taken with
      | nil => cases h
      | cons takes rest ih =>
          cases takes with
          | true => simp [hp]
          | false =>
              rw [List.map_cons, List.findSome?_cons]
              exact ih (List.mem_of_ne_of_mem (Ne.symm Bool.false_ne_true) h)

namespace WrittenFields

variable (f : WrittenFields)

theorem readFraction?_zone (zone : WrittenZone) :
    readFraction? (pointed f.fraction ++ zone.text) = some (nanosOf f.fraction, zone.text) :=
  readFraction?_pointed f.fraction_digits f.fraction_length zone.noDigitNext_text
    zone.head?_text_ne

theorem read?_day (tail : List Char) (items : Layout) :
    Layout.read? (f.dayText ++ tail) (Layout.day ++ items) {} =
      Layout.read? tail items { year := f.year, month := f.month, day := f.day } :=
  Layout.read?_day (fun rest => readYear?_paddedText f.year_lt ('-' :: rest)) f.month_lt f.day_lt
    tail items {}

theorem readings_day :
    readings f.dayText = [none, none, none, none, none, some (f.parts .day)] := by
  have hday (items : Layout) := f.read?_day [] items
  rw [List.append_nil] at hday
  have hrfc : readRfc3339? f.dayText = none := by
    have hfour := readFourDigits?_paddedText f.year_lt
    have hmonth := readTwo?_paddedText f.month_lt
    have hdayText := readTwo?_paddedText f.day_lt []
    have hdash (rest : List Char) : stripLead? ['-'] ('-' :: rest) = some rest := rfl
    have hend : readDayMark? [] = none := rfl
    rw [List.append_nil] at hdayText
    rw [readRfc3339?_eq]
    simp only [dayText, List.append_assoc, List.cons_append, hfour, hmonth, hdayText, hdash, hend,
      Option.bind_some, Option.bind_none]
  have hlast := hday []
  rw [List.append_nil] at hlast
  rw [readings, hrfc]
  simp only [Layout.known, List.map_cons, List.map_nil, List.append_assoc, hday, hlast]
  rfl

theorem readings_minutes :
    readings (f.text .minutes) = [none, none, none, none, some (f.parts .minutes), none] := by
  have hcolon (rest : List Char) : stripLead? [':'] (':' :: rest) = some rest := rfl
  have hrfc : readRfc3339? (f.text .minutes) = none := by
    have hfour := readFourDigits?_paddedText f.year_lt
    have hmonth := readTwo?_paddedText f.month_lt
    have hday := readTwo?_paddedText f.day_lt
    have hhour := readTwo?_paddedText f.hour_lt
    have hminute := readTwo?_paddedText f.minute_lt []
    have hdash (rest : List Char) : stripLead? ['-'] ('-' :: rest) = some rest := rfl
    have hmark (rest : List Char) : readDayMark? (' ' :: rest) = some rest := rfl
    have hend : stripLead? [':'] [] = none := rfl
    rw [List.append_nil] at hminute
    rw [readRfc3339?_eq]
    simp only [text, dayText, List.append_assoc, List.cons_append, hfour, hmonth, hday, hhour,
      hminute, hdash, hmark, hcolon, hend, Option.bind_some, Option.bind_none]
  have hday (items : Layout) : Layout.read? (f.text .minutes) (Layout.day ++ items) {} = _ :=
    f.read?_day _ items
  have hgap := Layout.read?_gap 2 f.hour
  have hminutes (items : Layout) (p : TimeParts) :=
    Layout.read?_hourAndMinute f.hour_lt f.minute_lt [] items p
  have hlast := hday []
  rw [List.append_nil] at hlast
  simp only [List.append_nil] at hminutes
  rw [readings, hrfc]
  simp only [Layout.known, Layout.clock, List.map_cons, List.map_nil, List.append_assoc,
    List.cons_append, hday, hgap, hminutes, hlast]
  rfl

theorem readings_seconds (mark : DayMark) (zone : WrittenZone) :
    readings (f.text (.seconds mark zone)) =
      (takers (.seconds mark zone)).map fun takes =>
        if takes then some (f.parts (.seconds mark zone)) else none := by
  have hrfc : readRfc3339? (f.text (.seconds mark zone)) = _ :=
    readRfc3339?_written f.year_lt f.month_lt f.day_lt f.hour_lt f.minute_lt f.second_lt
      (by cases mark <;> simp [DayMark.char]) (f.readFraction?_zone zone)
  have hday (items : Layout) :
      Layout.read? (f.text (.seconds mark zone)) (Layout.day ++ items) {} =
        Layout.read? (mark.char :: (f.clockText f.fraction ++ zone.text)) items
          { year := f.year, month := f.month, day := f.day } := by
    rw [text, List.append_assoc]
    exact f.read?_day _ items
  have hclock (items : Layout) (p : TimeParts) :
      Layout.read? (f.clockText f.fraction ++ zone.text) (Layout.clock ++ items) p = _ :=
    Layout.read?_clock f.hour_lt f.minute_lt f.second_lt (f.readFraction?_zone zone) items p
  have hend := hclock []
  have hgap (items : Layout) (p : TimeParts) :
      Layout.read? (' ' :: (f.clockText f.fraction ++ zone.text)) (.gap :: items) p =
        Layout.read? (f.clockText f.fraction ++ zone.text) items p := by
    simp only [clockText, List.append_assoc]
    exact Layout.read?_gap 2 f.hour _ items p
  have hminutes (p : TimeParts) :
      Layout.read? (f.clockText f.fraction ++ zone.text) [.hour, .mark ':', .minute] p = none := by
    simp only [clockText, List.append_assoc, List.cons_append]
    exact Layout.read?_hourAndMinute f.hour_lt f.minute_lt _ [] p
  have hlast := hday []
  rw [List.append_nil] at hlast hend
  rw [readings, hrfc]
  simp only [Layout.known, List.map_cons, List.map_nil, List.append_assoc, hday, hlast]
  cases mark with
  | blank =>
      simp only [DayMark.char, List.cons_append, hgap, hclock, hend, hminutes]
      cases zone with
      | unmarked => rfl
      | utc => rfl
      | offset negative hours minutes =>
        rw [WrittenZone.readZone?_offset, WrittenZone.read?_offset]
        rfl
  | letter =>
      have hletter (items : Layout) (p : TimeParts) :
          Layout.read? ('T' :: (f.clockText f.fraction ++ zone.text)) (.mark 'T' :: items) p =
            Layout.read? (f.clockText f.fraction ++ zone.text) items p := rfl
      simp only [DayMark.char, List.cons_append, hletter, hend]
      cases zone with
      | unmarked => rfl
      | utc => rfl
      | offset negative hours minutes =>
        rw [WrittenZone.readZone?_offset]
        rfl

theorem readings_text (form : WrittenForm) :
    readings (f.text form) =
      (takers form).map fun takes => if takes then some (f.parts form) else none := by
  cases form with
  | day => exact f.readings_day
  | minutes => exact f.readings_minutes
  | seconds mark zone => exact f.readings_seconds mark zone

/-- The dates that stand for a missing one have no month. -/
theorem month_eq_zero {form : WrittenForm}
    (h : Timestamp.zeroDates.any (·.toList == f.text form) = true) : f.month = 0 := by
  have hmonth : ∀ zero ∈ Timestamp.zeroDates, (zero.toList.drop 5).take 2 = ['0', '0'] := by
    decide
  obtain ⟨zero, hmem, hzero⟩ := List.any_eq_true.mp h
  have htext : ((f.text form).drop 5).take 2 = paddedText 2 f.month := by
    obtain ⟨rest, hrest⟩ := f.text_eq_year_append form
    have hyear : (paddedText 4 f.year ++ ['-']).length = 5 := by
      rw [List.length_append, length_paddedText (by decide) f.year_lt]
      rfl
    have hsplit : f.text form =
        (paddedText 4 f.year ++ ['-']) ++ (paddedText 2 f.month ++ rest) := by
      rw [hrest, List.append_assoc]
      rfl
    rw [hsplit, List.drop_left' hyear,
      List.take_left' (length_paddedText (by decide) f.month_lt)]
  rw [← beq_iff_eq.mp hzero, hmonth zero hmem] at htext
  rw [← digitsValue_paddedText 2 f.month, ← htext]
  rfl

end WrittenFields

namespace Timestamp

theorem ofText?_readings {s core : List Char} (htrim : trim s = core) (hne : core ≠ [])
    (hzero : zeroDates.any (·.toList == core) = false) :
    ofText? s = (readings core).findSome? (· >>= TimeParts.timestamp?) := by
  have hempty : core.isEmpty = false := List.isEmpty_eq_false_iff.mpr hne
  simp only [ofText?, htrim, hempty, hzero, Bool.or_self, Bool.false_eq_true, ↓reduceIte, readings,
    List.findSome?_cons, List.findSome?_map]
  cases readRfc3339? core >>= TimeParts.timestamp? <;> rfl

/-- All readers that take the text of some fields read the same, and one of them takes it. -/
theorem ofText?_text_of_fields (f : WrittenFields) (form : WrittenForm) {before after : List Char}
    (hbefore : ∀ c ∈ before, isBlank c = true) (hafter : ∀ c ∈ after, isBlank c = true) :
    ofText? (before ++ f.text form ++ after) = (f.parts form).timestamp? := by
  have htrim := f.trim_text form hbefore hafter
  by_cases hzero : zeroDates.any (·.toList == f.text form) = true
  · have hmonth : ¬ f.IsDay := fun hday => by
      have hlow := hday.1.1
      rw [f.month_eq_zero hzero] at hlow
      cases hlow
    have hout : f.OutOfRange form := by
      cases form with
      | day => exact hmonth
      | minutes | seconds mark zone => exact .inl hmonth
    rw [f.timestamp?_of_outOfRange hout, ofText?, htrim]
    simp only [hzero, Bool.or_true, ↓reduceIte]
  · have hne : f.text form ≠ [] := by
      obtain ⟨start, last, -, hne, htext⟩ := f.text_eq_append_last form
      rw [htext]
      exact List.append_ne_nil_of_right_ne_nil start hne
    rw [ofText?_readings htrim hne (Bool.eq_false_iff.mpr hzero), f.readings_text,
      findSome?_readings (mem_takers form)]

/-- The texts of one date-time have one normal form in all layouts: whatever blanks are around
them, whatever stands between the day and the time, and with or without a mark for UTC. Offsets
are kept, and so is the fraction, in the fewest digits that it needs. What is out of range has
no normal form but null. -/
theorem normalize_layouts (f : WrittenFields) :
    ∃ written, FewestDigits f.fraction written ∧
      ∀ (form : WrittenForm) (before after : List Char),
        (∀ c ∈ before, isBlank c = true) → (∀ c ∈ after, isBlank c = true) →
          (f.Stands form →
            normalize (.str (String.ofList (before ++ f.text form ++ after))) =
              .str (String.ofList (f.normalText written form))) ∧
          (f.OutOfRange form →
            normalize (.str (String.ofList (before ++ f.text form ++ after))) = .null) := by
  obtain ⟨written, hfewest, hwritten⟩ := exists_fewestDigits f.fraction_digits f.fraction_length
  refine ⟨written, hfewest, ?_⟩
  intro form before after hbefore hafter
  have hread : ofJson? (.str (String.ofList (before ++ f.text form ++ after))) =
      (f.parts form).timestamp? := by
    rw [ofJson?, String.toList_ofList, ofText?_text_of_fields f form hbefore hafter]
  constructor
  · intro hstands
    obtain ⟨t, ht, htext⟩ := f.exists_timestamp? hstands hwritten
    rw [normalize_of_some (hread.trans ht), htext]
  · intro hout
    rw [f.timestamp?_of_outOfRange hout] at hread
    rw [normalize, hread]

/-- The 29th of a February, at 23:05:09.1200. -/
def lastOfFebruary (year : Nat) (h : year < 10000) : WrittenFields where
  year := year
  month := 2
  day := 29
  hour := 23
  minute := 5
  second := 9
  fraction := ['1', '2', '0', '0']
  year_lt := h
  month_lt := by decide
  day_lt := by decide
  hour_lt := by decide
  minute_lt := by decide
  second_lt := by decide
  fraction_digits := List.all_eq_true.mp rfl
  fraction_length := by decide

/-- The day is one of a leap year, and of no other. -/
theorem normalize_layouts_february :
    ∃ written, FewestDigits ['1', '2', '0', '0'] written ∧
      normalize (.str " 2016-02-29 23:05:09.1200-05:30\n") =
        .str (String.ofList ("2016-02-29T23:05:09".toList ++ (pointed written ++
          "-05:30".toList))) ∧
      normalize (.str "2015-02-29 23:05") = .null := by
  obtain ⟨written, hfewest, hleap⟩ := normalize_layouts (lastOfFebruary 2016 (by decide))
  obtain ⟨_, -, hother⟩ := normalize_layouts (lastOfFebruary 2015 (by decide))
  have hnormal := (hleap (.seconds .blank (.offset true 5 30)) [' '] ['\n']
    (List.all_eq_true.mp rfl) (List.all_eq_true.mp rfl)).1
      ⟨by decide, by decide, by decide, by decide⟩
  have hnull := (hother .minutes [] [] (List.forall_mem_nil _) (List.forall_mem_nil _)).2
    (.inl (by decide))
  have htext : String.ofList ([' '] ++ (lastOfFebruary 2016 (by decide)).text
      (.seconds .blank (.offset true 5 30)) ++ ['\n']) = " 2016-02-29 23:05:09.1200-05:30\n" := by
    decide +kernel
  have hotherText : String.ofList ([] ++ (lastOfFebruary 2015 (by decide)).text .minutes ++ []) =
      "2015-02-29 23:05" := by
    decide +kernel
  have hstart : (lastOfFebruary 2016 (by decide)).dayText ++
      'T' :: (lastOfFebruary 2016 (by decide)).clockText [] = "2016-02-29T23:05:09".toList := by
    decide +kernel
  have hzone : (WrittenZone.offset true 5 30).normalText = "-05:30".toList := by
    decide +kernel
  have hwritten : (lastOfFebruary 2016 (by decide)).normalText written
      (.seconds .blank (.offset true 5 30)) =
        "2016-02-29T23:05:09".toList ++ (pointed written ++ "-05:30".toList) := by
    rw [← hstart, ← hzone]
    simp [WrittenFields.normalText, WrittenFields.clockText, pointed]
  rw [htext, hwritten] at hnormal
  rw [hotherText] at hnull
  exact ⟨written, hfewest, hnormal, hnull⟩

end Timestamp

end RowShape
