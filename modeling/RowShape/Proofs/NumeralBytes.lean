import RowShape.Proofs.NumberTexts

/-!
Numerals in the bytes of a text. A scan by byte indices stops where the numeral at the start of
the text ends, which is between two characters, and what is in front of that place reads as a
number.
-/

namespace RowShape

/-- The bytes of a text in UTF-8. -/
def utf8 (s : List Char) : List UInt8 := s.flatMap String.utf8EncodeChar

/-- Whether the byte at an index is there and is a character of some kind, taken for ASCII. -/
def byteIs (bytes : List UInt8) (i : Nat) (p : Char → Bool) : Bool :=
  bytes[i]?.any fun b => p (Char.ofNat b.toNat)

theorem lt_length_of_byteIs {bytes : List UInt8} {i : Nat} {p : Char → Bool}
    (h : byteIs bytes i p = true) : i < bytes.length := by
  rw [byteIs, Option.any_eq_true] at h
  obtain ⟨b, hb, _⟩ := h
  exact (List.getElem?_eq_some_iff.mp hb).1

/-- Passes over a sign. -/
def signEnd (bytes : List UInt8) (i : Nat) : Nat :=
  if byteIs bytes i isSign then i + 1 else i

/-- Passes over a run of digits. -/
def digitsEnd (bytes : List UInt8) (i : Nat) : Nat :=
  if h : byteIs bytes i Char.isDigit then digitsEnd bytes (i + 1) else i
termination_by bytes.length - i
decreasing_by exact Nat.sub_succ_lt_self _ _ (lt_length_of_byteIs h)

/-- Passes over a point and the digits behind it, if there are digits on one of its sides. -/
def fractionEnd (bytes : List UInt8) (start i : Nat) : Nat :=
  if byteIs bytes i (· == '.') then
    let stop := digitsEnd bytes (i + 1)
    if i + 1 < stop ∨ start < i then stop else i
  else i

/-- Passes over a mark and the power behind it, if that has digits. -/
def powerEnd (bytes : List UInt8) (i : Nat) : Nat :=
  if byteIs bytes i isMark then
    let first := signEnd bytes (i + 1)
    let stop := digitsEnd bytes first
    if first < stop then stop else i
  else i

/-- The index at which the numeral at the start of some bytes ends. -/
def numeralEnd (bytes : List UInt8) : Option Nat :=
  let start := signEnd bytes 0
  let wholeEnd := digitsEnd bytes start
  let mantissaEnd := fractionEnd bytes start wholeEnd
  let digits := (wholeEnd - start) + (mantissaEnd - (wholeEnd + 1))
  if digits = 0 then none else some (powerEnd bytes mantissaEnd)

/-- A kind of characters that are all in ASCII. -/
def AsciiOnly (p : Char → Bool) : Prop := ∀ c, p c = true → c.toNat < 128

theorem asciiOnly_isDigit : AsciiOnly Char.isDigit := by
  intro c hc
  have hhigh : c.toNat ≤ 57 := (Char.isDigit_iff_toNat.mp hc).2
  omega

theorem asciiOnly_isSign : AsciiOnly isSign := by
  intro c hc
  cases isSign_iff.mp hc with
  | inl h => rw [h]; decide
  | inr h => rw [h]; decide

theorem asciiOnly_isMark : AsciiOnly isMark := by
  intro c hc
  cases isMark_iff.mp hc with
  | inl h => rw [h]; decide
  | inr h => rw [h]; decide

theorem asciiOnly_point : AsciiOnly (· == '.') := by
  intro c hc
  rw [beq_iff_eq.mp hc]
  decide

theorem utf8EncodeChar_ascii {c : Char} (h : c.toNat < 128) :
    String.utf8EncodeChar c = [UInt8.ofNat c.toNat] :=
  if_pos (Nat.le_of_lt_succ h)

/-- Outside ASCII a character starts with a byte that is no character of ASCII. -/
theorem utf8EncodeChar_other {c : Char} (h : 128 ≤ c.toNat) :
    ∃ b bs, String.utf8EncodeChar c = b :: bs ∧ 128 ≤ b.toNat := by
  have hlarge : ¬ c.val.toNat ≤ 0x7f := Nat.not_le.mpr h
  simp only [String.utf8EncodeChar, hlarge, if_false]
  split
  case isTrue => exact ⟨_, _, rfl, by rw [UInt8.toNat_ofNat']; omega⟩
  case isFalse =>
    split
    case isTrue => exact ⟨_, _, rfl, by rw [UInt8.toNat_ofNat']; omega⟩
    case isFalse => exact ⟨_, _, rfl, by rw [UInt8.toNat_ofNat']; omega⟩

theorem utf8_append (s t : List Char) : utf8 (s ++ t) = utf8 s ++ utf8 t := List.flatMap_append

theorem length_utf8_pos {s : List Char} (h : s ≠ []) : 0 < (utf8 s).length := by
  cases s with
  | nil => exact absurd rfl h
  | cons c cs =>
      rw [utf8, List.flatMap_cons, List.length_append, String.length_utf8EncodeChar]
      exact Nat.add_pos_left c.utf8Size_pos _

theorem toNat_ofNat_of_byte (b : UInt8) : (Char.ofNat b.toNat).toNat = b.toNat := by
  have hvalid : b.toNat.isValidChar := .inl (Nat.lt_trans b.toNat_lt (by decide))
  rw [Char.ofNat, dif_pos hvalid]
  rfl

/-- A byte index that stands between two characters, with the rest of the text behind it. -/
def Stands (s : List Char) (i : Nat) (rest : List Char) : Prop :=
  ∃ before, before ++ rest = s ∧ (utf8 before).length = i

namespace Stands

variable {s rest : List Char} {i : Nat}

theorem length (h : Stands s i rest) : i + (utf8 rest).length = (utf8 s).length := by
  obtain ⟨before, rfl, rfl⟩ := h
  rw [utf8_append, List.length_append]

/-- An index behind some characters is larger. -/
theorem lt_iff {run : List Char} {j : Nat} (h : Stands s i (run ++ rest)) (hj : Stands s j rest) :
    i < j ↔ run ≠ [] := by
  have hi := h.length
  have hlength := hj.length
  rw [utf8_append, List.length_append] at hi
  constructor
  · rintro hlt rfl
    rw [utf8, List.flatMap_nil, List.length_nil] at hi
    omega
  · intro hne
    have hpos := length_utf8_pos hne
    omega

theorem byteIs (h : Stands s i rest) {p : Char → Bool} (hp : AsciiOnly p) :
    byteIs (utf8 s) i p = rest.head?.any p := by
  obtain ⟨before, rfl, rfl⟩ := h
  rw [RowShape.byteIs, utf8_append, List.getElem?_append_right (Nat.le_refl _), Nat.sub_self]
  cases rest with
  | nil => rfl
  | cons c cs =>
      change ((String.utf8EncodeChar c ++ utf8 cs)[0]?.any fun b => p (Char.ofNat b.toNat)) = p c
      by_cases hc : c.toNat < 128
      · have hb : (UInt8.ofNat c.toNat).toNat = c.toNat := by
          rw [UInt8.toNat_ofNat']
          omega
        rw [utf8EncodeChar_ascii hc]
        change p (Char.ofNat (UInt8.ofNat c.toNat).toNat) = p c
        rw [hb, Char.ofNat_toNat]
      · obtain ⟨b, bs, hbytes, hb⟩ := utf8EncodeChar_other (Nat.not_lt.mp hc)
        have hnone : p c = false := Bool.eq_false_iff.mpr (mt (hp c) hc)
        have hbyte : p (Char.ofNat b.toNat) = false := by
          refine Bool.eq_false_iff.mpr (mt (hp _) ?_)
          rw [toNat_ofNat_of_byte]
          exact Nat.not_lt.mpr hb
        rw [hbytes, hnone, ← hbyte]
        rfl

theorem next {c : Char} (h : Stands s i (c :: rest)) (hc : c.toNat < 128) :
    Stands s (i + 1) rest := by
  obtain ⟨before, rfl, rfl⟩ := h
  refine ⟨before ++ [c], (List.append_cons _ _ _).symm, ?_⟩
  have hone : (utf8 [c]).length = 1 := by
    rw [utf8, List.flatMap_singleton, utf8EncodeChar_ascii hc, List.length_singleton]
  rw [utf8_append, List.length_append, hone]

theorem signEnd (h : Stands s i rest) : Stands s (signEnd (utf8 s) i) (scanSign rest).2 := by
  rw [RowShape.signEnd, h.byteIs asciiOnly_isSign]
  cases rest with
  | nil => exact h
  | cons c cs =>
      rw [List.head?_cons, Option.any_some, scanSign]
      split
      case isTrue hc => exact h.next (asciiOnly_isSign c hc)
      case isFalse => exact h

theorem digitsEnd (h : Stands s i rest) :
    Stands s (digitsEnd (utf8 s) i) (rest.dropWhile Char.isDigit) := by
  induction rest generalizing i with
  | nil =>
      rw [RowShape.digitsEnd, h.byteIs asciiOnly_isDigit]
      exact h
  | cons c cs ih =>
      rw [RowShape.digitsEnd, h.byteIs asciiOnly_isDigit, List.head?_cons, Option.any_some,
        List.dropWhile_cons]
      split
      case isTrue hc => exact ih (h.next (asciiOnly_isDigit c hc))
      case isFalse => exact h

/-- A run of digits is passed over exactly where there is one. -/
theorem lt_digitsEnd (h : Stands s i rest) :
    i < RowShape.digitsEnd (utf8 s) i ↔ rest.takeWhile Char.isDigit ≠ [] := by
  have hrun : Stands s i (rest.takeWhile Char.isDigit ++ rest.dropWhile Char.isDigit) := by
    rwa [List.takeWhile_append_dropWhile]
  exact hrun.lt_iff h.digitsEnd

theorem fractionEnd {start : Nat} {whole : List Char} (h : Stands s i rest)
    (hstart : start < i ↔ whole ≠ []) :
    Stands s (fractionEnd (utf8 s) start i) (scanFraction whole rest).2 := by
  rw [RowShape.fractionEnd, h.byteIs asciiOnly_point]
  cases rest with
  | nil => exact h
  | cons c cs =>
      rw [List.head?_cons, Option.any_some]
      split
      case isFalse hc =>
        have hpoint : (c :: cs).head? ≠ some '.' :=
          fun heq => hc (beq_iff_eq.mpr (Option.some.inj heq))
        rwa [scanFraction_of_ne hpoint]
      case isTrue hc =>
        cases beq_iff_eq.mp hc
        have hdigits := h.next (by decide)
        simp only [scanFraction, hdigits.lt_digitsEnd, hstart]
        by_cases hnone : whole = [] ∧ cs.takeWhile Char.isDigit = []
        · rw [hnone.1, hnone.2]
          exact h
        · rw [if_pos (by tauto), if_neg (by simpa using hnone)]
          exact hdigits.digitsEnd

theorem powerEnd (h : Stands s i rest) :
    Stands s (powerEnd (utf8 s) i) (Exponent.scan rest).2 := by
  rw [RowShape.powerEnd, h.byteIs asciiOnly_isMark]
  cases rest with
  | nil => exact h
  | cons c cs =>
      have hmark : (c == 'e' || c == 'E') = isMark c := rfl
      rw [List.head?_cons, Option.any_some, Exponent.scan, hmark]
      split
      case isFalse => exact h
      case isTrue hc =>
        have hsign := (h.next (asciiOnly_isMark c hc)).signEnd
        simp only [hsign.lt_digitsEnd]
        cases hrun : (scanSign cs).2.takeWhile Char.isDigit with
        | nil => exact h
        | cons d ds => exact hsign.digitsEnd

end Stands

/-- An index is told by what is behind it. -/
theorem Stands.eq_length {s before rest : List Char} {i : Nat} (h : Stands s i rest)
    (hs : before ++ rest = s) : i = (utf8 before).length := by
  obtain ⟨start, hstart, rfl⟩ := h
  rw [List.append_cancel_right (hstart.trans hs.symm)]

/-- The digits of a mantissa are counted by the indices around them. -/
theorem Stands.digits_eq_zero {s whole rest : List Char} {start i : Nat}
    (hstart : Stands s start (whole ++ rest)) (h : Stands s i rest) :
    i - start + (RowShape.fractionEnd (utf8 s) start i - (i + 1)) = 0 ↔
      (whole.isEmpty && (scanFraction whole rest).1.isNone) = true := by
  have hwhole := hstart.lt_iff h
  have hend := h.fractionEnd hwhole
  have htext := scanFraction_text whole rest
  have hnone : whole = [] ↔ ¬ start < i := by rw [hwhole, not_not]
  cases hfraction : (scanFraction whole rest).1 with
  | none =>
      rw [hfraction, Option.elim_none, List.nil_append] at htext
      rw [htext] at hend
      have hsame := h.length.trans hend.length.symm
      rw [Option.isNone_none, Bool.and_true, List.isEmpty_iff, hnone]
      omega
  | some digits =>
      rw [hfraction, Option.elim_some, List.cons_append] at htext
      rw [← htext] at h
      have hdigits := (h.next (by decide)).lt_iff hend
      rw [Option.isNone_some, Bool.and_false]
      refine iff_of_false (fun hzero => ?_) Bool.false_ne_true
      have hwholeNone : whole = [] := hnone.mpr (by omega)
      have hdigitsNone : digits = [] := not_not.mp (mt hdigits.mpr (by omega))
      exact (allDigits_of_scanFraction hfraction).2 (by rw [hwholeNone, hdigitsNone]; rfl)

/-- The scan by indices ends where the numeral at the start of the text does. -/
theorem numeralEnd_utf8 (s : List Char) :
    numeralEnd (utf8 s) = (Numeral.scan s).map fun result => (utf8 result.1.text).length := by
  have hstart : Stands s 0 s := ⟨[], rfl, rfl⟩
  have hsign := hstart.signEnd
  have hwhole := hsign.digitsEnd
  have hpower := (hwhole.fractionEnd hsign.lt_digitsEnd).powerEnd
  have hrun : Stands s (signEnd (utf8 s) 0) ((scanSign s).2.takeWhile Char.isDigit ++
    (scanSign s).2.dropWhile Char.isDigit) := by rwa [List.takeWhile_append_dropWhile]
  have hdigits := hrun.digits_eq_zero hwhole
  cases hscan : Numeral.scan s with
  | none =>
      simp only [Numeral.scan] at hscan
      split at hscan
      case isTrue hnone => exact if_pos (hdigits.mpr hnone)
      case isFalse => cases hscan
  | some result =>
      have htext : result.1.text ++ result.2 = s := Numeral.text_of_scan hscan
      simp only [Numeral.scan] at hscan
      split at hscan
      case isTrue => cases hscan
      case isFalse hsome =>
        cases hscan
        rw [Option.map_some, ← hpower.eq_length htext]
        exact if_neg (mt hdigits.mp hsome)

/-- A text that ends in a digit, or in a point behind one. -/
def EndsInDigits (s : List Char) : Prop :=
  ∃ before d, d.isDigit = true ∧ (s = before ++ [d] ∨ s = before ++ [d, '.'])

theorem IsDigits.exists_last {s : List Char} (h : IsDigits s) :
    ∃ before d, s = before ++ [d] ∧ d.isDigit = true :=
  ⟨s.dropLast, s.getLast h.1, (List.dropLast_append_getLast h.1).symm,
    h.2 _ (List.getLast_mem h.1)⟩

theorem IsDigits.endsInDigits {s : List Char} (h : IsDigits s) (before : List Char) :
    EndsInDigits (before ++ s) := by
  obtain ⟨more, d, rfl, hd⟩ := h.exists_last
  exact ⟨before ++ more, d, hd, .inl (List.append_assoc _ _ _).symm⟩

/-- Neither a sign nor a mark is the end of a numeral, and a point is with a digit before it. -/
theorem IsNumeral.endsInDigits {s : List Char} (h : IsNumeral s) : EndsInDigits s := by
  cases h with | @parts sign _ _ _ hmantissa hpower =>
  cases hpower with
  | power _ _ hdigits =>
      rw [← List.append_assoc, ← List.cons_append, ← List.append_assoc]
      exact hdigits.endsInDigits _
  | absent =>
      rw [List.append_nil]
      cases hmantissa with
      | whole h => exact h.endsInDigits _
      | fraction h =>
          rw [← List.singleton_append, ← List.append_assoc]
          exact h.endsInDigits _
      | @pointed digits fraction h hfraction =>
          by_cases hnone : fraction = []
          · obtain ⟨before, d, rfl, hd⟩ := h.exists_last
            rw [hnone]
            exact ⟨sign ++ before, d, hd, .inr (by simp)⟩
          · rw [← List.append_assoc, List.append_cons]
            exact IsDigits.endsInDigits ⟨hnone, hfraction⟩ _

theorem utf8_toList (s : String) : utf8 s.toList = s.toUTF8.data.toList := by
  rw [String.toUTF8_eq_toByteArray, ← String.utf8Encode_toList, List.utf8Encode,
    List.data_toByteArray, List.toList_toArray, utf8]

theorem byteIdx_rawEndPos (s : String) : s.rawEndPos.byteIdx = (utf8 s.toList).length := by
  rw [utf8_toList]
  rfl

/-- What is read of a text is its longest numeral: the scan of its bytes ends behind that, which
is between two characters, and the slice in front of this place reads as the number. Texts that
start with no numeral give zero. -/
theorem leadingNumber_longest (s : String) :
    ((∃ t, IsNumeral t ∧ t <+: s.toList) →
      ∃ slice rest : String, s = slice ++ rest ∧
        (∃ n, Numeral.scan s.toList = some (n, rest.toList) ∧ n.text = slice.toList) ∧
        numeralEnd s.toUTF8.data.toList = some slice.rawEndPos.byteIdx ∧
        slice.rawEndPos.IsValid s ∧
        LongestNumeral s.toList slice.toList ∧ EndsInDigits slice.toList ∧
        Double.ofText? slice.toList = some (leadingNumber s.toList)) ∧
    ((¬ ∃ t, IsNumeral t ∧ t <+: s.toList) →
      numeralEnd s.toUTF8.data.toList = none ∧ leadingNumber s.toList = .finite (.zero false)) := by
  have hend := numeralEnd_utf8 s.toList
  rw [utf8_toList] at hend
  constructor
  · intro hsome
    cases hscan : Numeral.scan s.toList with
    | none =>
        obtain ⟨t, ht, hprefix⟩ := hsome
        exact absurd hprefix (Numeral.scan_eq_none_iff.mp hscan t ht)
    | some result =>
        obtain ⟨n, rest⟩ := result
        have hlongest := Numeral.longest_of_scan hscan
        have hs : s = String.ofList n.text ++ String.ofList rest := by
          rw [← String.ofList_append, Numeral.text_of_scan hscan, String.ofList_toList]
        refine ⟨String.ofList n.text, String.ofList rest, hs, ⟨n, ?_, ?_⟩, ?_, ?_, ?_⟩
        · rw [String.toList_ofList]
        · rw [String.toList_ofList]
        · rw [hend, hscan, byteIdx_rawEndPos, String.toList_ofList]
          rfl
        · exact String.Pos.Raw.isValid_iff_exists_append.mpr ⟨_, _, hs, rfl⟩
        · rw [String.toList_ofList, leadingNumber, hscan]
          exact ⟨hlongest, hlongest.isNumeral.endsInDigits,
            (Numeral.scan_wellFormed hscan).ofText?_text⟩
  · intro hnone
    have hscan : Numeral.scan s.toList = none :=
      Numeral.scan_eq_none_iff.mpr fun t ht hprefix => hnone ⟨t, ht, hprefix⟩
    rw [hscan] at hend
    exact ⟨hend, by rw [leadingNumber, hscan]⟩

/-- A mark without digits behind its sign is no part of the numeral, and a sign or a point by
itself is none. -/
theorem leadingNumber_longest_danglingMark :
    (∃ t, IsNumeral t ∧ t <+: "-1.5e+\u00e9".toList) ∧
      LongestNumeral "-1.5e+\u00e9".toList "-1.5".toList ∧
      Double.ofText? "-1.5".toList = some (leadingNumber "-1.5e+\u00e9".toList) ∧
      (¬ ∃ t, IsNumeral t ∧ t <+: "+.e5".toList) ∧
      numeralEnd "+.e5".toUTF8.data.toList = none := by
  have hscan : Numeral.scan "-1.5e+\u00e9".toList =
      some (⟨some '-', ['1'], some ['5'], none⟩, "e+\u00e9".toList) := by decide +kernel
  have hlongest := Numeral.longest_of_scan hscan
  have hsome : ∃ t, IsNumeral t ∧ t <+: "-1.5e+\u00e9".toList :=
    ⟨_, hlongest.isNumeral, hlongest.isPrefix⟩
  have hnone : ¬ ∃ t, IsNumeral t ∧ t <+: "+.e5".toList := by
    intro h
    obtain ⟨t, ht, hprefix⟩ := h
    exact Numeral.scan_eq_none_iff.mp (by decide +kernel) t ht hprefix
  obtain ⟨slice, rest, -, ⟨n, hn, htext⟩, -, -, hslice, -, hread⟩ :=
    (leadingNumber_longest "-1.5e+\u00e9").1 hsome
  have hparts : _ = n := congrArg Prod.fst (Option.some.inj (hscan.symm.trans hn))
  have htaken : slice.toList = "-1.5".toList := by
    rw [← htext, ← hparts]
    decide +kernel
  rw [htaken] at hslice hread
  exact ⟨hsome, hslice, hread, hnone, ((leadingNumber_longest "+.e5").2 hnone).1⟩

end RowShape
