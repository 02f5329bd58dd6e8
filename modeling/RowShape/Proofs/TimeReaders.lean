import RowShape.Time.Reading

/-!
The readers of timestamps, part by part, and what every timestamp that is read has: an offset
of whole minutes, and a date that is supported.
-/

namespace RowShape

/-- Whether a sign is negative. -/
def isNegative? (sign : Option Char) : Option Bool :=
  if sign = some '+' then some false
  else if sign = some '-' ∨ sign = some '\u2212' then some true
  else none

theorem readOffset?_eq (separator : List Char → Option (List Char)) (s : List Char) :
    readOffset? separator s =
      (isNegative? s.head?).bind fun negative =>
        (readTwo? s.tail).bind fun hours =>
          (separator hours.2).bind fun afterMark =>
            (readTwo? afterMark).bind fun minutes =>
              if 60 ≤ minutes.1 then none
              else
                let seconds : Int := (hours.1 * 3600 + minutes.1 * 60 : Nat)
                some (if negative then -seconds else seconds, minutes.2) := by
  unfold readOffset? isNegative?
  generalize s.head? = sign
  split
  · rfl
  · rfl
  · rfl
  · next hplus hminus hlong =>
      rw [if_neg hplus, if_neg (not_or.mpr ⟨hminus, hlong⟩)]
      rfl

theorem readOffset?_minutes {separator : List Char → Option (List Char)} {s rest : List Char}
    {offset : Int} (h : readOffset? separator s = some (offset, rest)) :
    offset.natAbs % 60 = 0 := by
  rw [readOffset?_eq] at h
  simp only [Option.bind_eq_some_iff] at h
  obtain ⟨negative, -, hours, -, afterMark, -, minutes, -, h⟩ := h
  split at h
  · cases h
  · obtain ⟨rfl, -⟩ := Prod.mk.inj (Option.some.inj h)
    split <;> omega

theorem LayoutItem.read?_minutes {p q : TimeParts} {s rest : List Char} {item : LayoutItem}
    (h : item.read? p s = some (q, rest)) (hp : p.offset.natAbs % 60 = 0) :
    q.offset.natAbs % 60 = 0 := by
  cases item with
  | offset =>
      obtain ⟨⟨offset, afterOffset⟩, hread, heq⟩ := Option.map_eq_some_iff.mp h
      cases heq
      exact readOffset?_minutes hread
  | gap =>
      cases h
      exact hp
  | year | month | day | hour | minute | second | fraction | mark c =>
      obtain ⟨read, -, heq⟩ := Option.map_eq_some_iff.mp h
      cases heq
      exact hp

theorem Layout.read?_minutes {layout : Layout} {p q : TimeParts} {s : List Char}
    (h : layout.read? s p = some q) (hp : p.offset.natAbs % 60 = 0) :
    q.offset.natAbs % 60 = 0 := by
  induction layout generalizing p s with
  | nil =>
      simp only [read?] at h
      split at h
      · cases h
        exact hp
      · cases h
  | cons item rest ih =>
      simp only [read?] at h
      split at h
      · next p' s' hitem => exact ih h (LayoutItem.read?_minutes hitem hp)
      · cases h

def readFourDigits? (s : List Char) : Option (Nat × List Char) :=
  if (s.take 4).length = 4 && (s.take 4).all Char.isDigit then
    some (digitsValue (s.take 4), s.drop 4)
  else none

def readDayMark? : List Char → Option (List Char)
  | c :: rest => if c == 'T' || c == 't' || c == ' ' then some rest else none
  | [] => none

def readZone? (s : List Char) : Option (Int × List Char) :=
  if s.head? = some 'Z' ∨ s.head? = some 'z' then some (0, s.tail)
  else readOffset? (stripLead? [':']) s

/-- The readers of the parts of RFC 3339 one after the other. -/
theorem readRfc3339?_eq (s : List Char) :
    readRfc3339? s =
      (readFourDigits? s).bind fun year =>
        (stripLead? ['-'] year.2).bind fun s =>
          (readTwo? s).bind fun month =>
            (stripLead? ['-'] month.2).bind fun s =>
              (readTwo? s).bind fun day =>
                (readDayMark? day.2).bind fun s =>
                  (readTwo? s).bind fun hour =>
                    (stripLead? [':'] hour.2).bind fun s =>
                      (readTwo? s).bind fun minute =>
                        (stripLead? [':'] minute.2).bind fun s =>
                          (readTwo? s).bind fun second =>
                            (readFraction? second.2).bind fun nanos =>
                              (readZone? nanos.2).bind fun zone =>
                                if zone.2.isEmpty then
                                  some ⟨year.1, month.1, day.1, hour.1, minute.1, second.1,
                                    nanos.1, zone.1⟩
                                else none := by
  unfold readRfc3339? readFourDigits?
  by_cases hyear : ((s.take 4).length = 4 && (s.take 4).all Char.isDigit) = true
  · rw [if_pos hyear, if_pos hyear]
    refine Option.bind_congr fun year _ => ?_
    refine Option.bind_congr fun s _ => ?_
    refine Option.bind_congr fun month _ => ?_
    refine Option.bind_congr fun s _ => ?_
    refine Option.bind_congr fun day _ => ?_
    -- What follows the mark is read inside its branch, and so is what follows the zone.
    obtain ⟨day, rest⟩ := day
    cases rest with
    | nil => rfl
    | cons c rest =>
        unfold readDayMark?
        dsimp only
        by_cases hmark : (c == 'T' || c == 't' || c == ' ') = true
        · rw [if_pos hmark, if_pos hmark]
          refine Option.bind_congr fun s _ => ?_
          refine Option.bind_congr fun hour _ => ?_
          refine Option.bind_congr fun s _ => ?_
          refine Option.bind_congr fun minute _ => ?_
          refine Option.bind_congr fun s _ => ?_
          refine Option.bind_congr fun second _ => ?_
          refine Option.bind_congr fun nanos _ => ?_
          unfold readZone?
          generalize nanos.2 = rest
          split
          · rfl
          · rfl
          · next hupper hlower =>
              have hother : ¬ (rest.head? = some 'Z' ∨ rest.head? = some 'z') := by
                rw [List.head?_eq_some_iff, List.head?_eq_some_iff, not_or, not_exists, not_exists]
                exact ⟨hupper, hlower⟩
              rw [if_neg hother]
              rfl
        · rw [if_neg hmark, if_neg hmark]
          rfl
  · rw [if_neg hyear, if_neg hyear]
    rfl

theorem readZone?_minutes {s rest : List Char} {offset : Int}
    (h : readZone? s = some (offset, rest)) : offset.natAbs % 60 = 0 := by
  unfold readZone? at h
  split at h
  · cases h
    rfl
  · exact readOffset?_minutes h

theorem readRfc3339?_minutes {s : List Char} {p : TimeParts} (h : readRfc3339? s = some p) :
    p.offset.natAbs % 60 = 0 := by
  rw [readRfc3339?_eq] at h
  simp only [Option.bind_eq_some_iff] at h
  obtain ⟨_, -, _, -, _, -, _, -, _, -, _, -, _, -, _, -, _, -, _, -, _, -, _, -, zone, hzone, h⟩ :=
    h
  split at h
  · cases h
    exact readZone?_minutes hzone
  · cases h

namespace Timestamp

/-- What a timestamp has that was read: an offset of whole minutes, and a date that is
supported. -/
structure Readable (t : Timestamp) : Prop where
  minutes : t.offset.natAbs % 60 = 0
  supported : of? t.date t.time t.offset = some t

theorem of?_eq_some {date : Date} {time : TimeOfDay} {offset : Int} {t : Timestamp}
    (h : of? date time offset = some t) :
    t.date = date ∧ t.time = time ∧ t.offset = offset := by
  unfold of? at h
  split at h
  · dsimp only at h
    split at h
    · cases h
      exact ⟨rfl, rfl, rfl⟩
    · cases h
  · cases h

theorem readable_of? {date : Date} {time : TimeOfDay} {offset : Int} {t : Timestamp}
    (h : of? date time offset = some t) (hminutes : offset.natAbs % 60 = 0) : t.Readable := by
  obtain ⟨hdate, htime, hoffset⟩ := of?_eq_some h
  constructor
  · rwa [hoffset]
  · rwa [hdate, htime, hoffset]

theorem readable_of_timestamp? {p : TimeParts} {t : Timestamp} (h : p.timestamp? = some t)
    (hp : p.offset.natAbs % 60 = 0) : t.Readable := by
  simp only [TimeParts.timestamp?, Option.bind_eq_bind, Option.bind_eq_some_iff] at h
  obtain ⟨_, -, _, -, h⟩ := h
  exact readable_of? h hp

/-- Timestamps are read with an offset of whole minutes, whatever the layout. -/
theorem readable_ofText? {s : List Char} {t : Timestamp} (h : ofText? s = some t) :
    t.Readable := by
  unfold ofText? at h
  dsimp only at h
  split at h
  · cases h
  split at h
  · next hread =>
      cases h
      obtain ⟨p, hp, hread⟩ := Option.bind_eq_some_iff.mp hread
      exact readable_of_timestamp? hread (readRfc3339?_minutes hp)
  · obtain ⟨layout, -, hread⟩ := List.exists_of_findSome?_eq_some h
    obtain ⟨p, hp, hread⟩ := Option.bind_eq_some_iff.mp hread
    exact readable_of_timestamp? hread (Layout.read?_minutes hp rfl)

theorem readable_ofJson? {v : Json} {t : Timestamp} (h : ofJson? v = some t) : t.Readable := by
  unfold ofJson? at h
  split at h
  · exact readable_ofText? h
  · split at h
    · exact readable_of? h rfl
    · cases h
  · cases h

end Timestamp

end RowShape
