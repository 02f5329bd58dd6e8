import RowShape.Proofs.Conformance
import RowShape.Proofs.Digits
import RowShape.Proofs.WholeNumbers
import RowShape.Sqlite.Conversion

/-!
Texts that start with an integer, cast to one. A text that is an integer and nothing else is
read digit by digit; what follows the integer sends it through binary64, which keeps 53 bits.
-/

namespace RowShape

/-- What can stand behind an integer without being read as more of the number. -/
def EndsInteger (s : List Char) : Prop :=
  ∀ c, s.head? = some c → c.isDigit = false ∧ c ≠ '.' ∧ c ≠ 'e' ∧ c ≠ 'E'

theorem EndsInteger.noDigitNext {s : List Char} (h : EndsInteger s) : NoDigitNext s :=
  fun c hc => (h c hc).1

theorem EndsInteger.scanFraction {s : List Char} (h : EndsInteger s) (whole : List Char) :
    scanFraction whole s = (none, s) := by
  cases s with
  | nil => rfl
  | cons c cs =>
      have hpoint : c ≠ '.' := (h c rfl).2.1
      simp [RowShape.scanFraction, hpoint]

theorem EndsInteger.scanExponent {s : List Char} (h : EndsInteger s) :
    Exponent.scan s = (none, s) := by
  cases s with
  | nil => rfl
  | cons c cs =>
      obtain ⟨-, -, hlower, hupper⟩ := h c rfl
      simp [Exponent.scan, hlower, hupper]

/-- A text cut behind the integer that it starts with. -/
structure LeadingInteger where
  sign : Option Char
  digits : List Char
  rest : List Char
  isSign_of_eq : ∀ c, sign = some c → isSign c = true
  digits_ne_nil : digits ≠ []
  allDigits : AllDigits digits
  endsInteger : EndsInteger rest

namespace LeadingInteger

def text (w : LeadingInteger) : List Char := w.sign.toList ++ (w.digits ++ w.rest)

def value (w : LeadingInteger) : Int := signed (w.sign == some '-') (digitsValue w.digits)

theorem scanSign_text (w : LeadingInteger) : scanSign w.text = (w.sign, w.digits ++ w.rest) := by
  obtain ⟨sign, digits, rest, hsign, hne, hdigits, -⟩ := w
  cases sign with
  | some c => simp [text, scanSign, hsign c rfl]
  | none =>
      cases digits with
      | nil => exact absurd rfl hne
      | cons d ds =>
          have hd := isSign_of_isDigit (hdigits d List.mem_cons_self)
          simp [text, scanSign, hd]

/-- The numeral at the start of the text is the integer. -/
theorem scan_text (w : LeadingInteger) :
    Numeral.scan w.text = some (⟨w.sign, w.digits, none, none⟩, w.rest) := by
  have hend := w.endsInteger.noDigitNext
  simp only [Numeral.scan, w.scanSign_text, w.allDigits.takeWhile_append hend,
    w.allDigits.dropWhile_append hend, w.endsInteger.scanFraction, w.endsInteger.scanExponent,
    List.isEmpty_eq_false_iff.mpr w.digits_ne_nil, Bool.false_and, Bool.false_eq_true, ite_false]

theorem leadingNumber_text (w : LeadingInteger) :
    leadingNumber w.text = .ofDecimal (w.sign == some '-') (digitsValue w.digits) 0 := by
  simp [leadingNumber, w.scan_text, Numeral.value]

theorem value_eq (w : LeadingInteger) :
    w.value =
      if w.sign = some '-' then -(digitsValue w.digits : Int) else digitsValue w.digits := by
  simp only [value, signed, beq_iff_eq]

/-- Only a text that is an integer as a whole is read digit by digit. -/
theorem readInt64?_text {w : LeadingInteger} (h : InInt64 w.value) :
    readInt64? w.text = if w.rest = [] then some w.value else none := by
  have hne : (w.digits ++ w.rest).isEmpty = false := by simp [w.digits_ne_nil]
  have hall : w.digits.all Char.isDigit = true := List.all_eq_true.mpr w.allDigits
  rw [value_eq, InInt64] at h
  simp only [readInt64?, w.scanSign_text, hne, Bool.false_or, List.all_append, hall, Bool.true_and]
  cases hrest : w.rest with
  | nil => simp [h, value_eq]
  | cons c cs =>
      have hc : c.isDigit = false := (w.endsInteger c (by simp [hrest])).1
      simp [hc]

end LeadingInteger

/-- The cast of a text that starts with an integer of 64 bits, for integer fields and for
columns declared as integers. The integer itself comes out where nothing follows it, where
its 53 leading bits say all of it, and for the largest integer, and nowhere else. -/
theorem toInt64_leadingInteger {w : LeadingInteger} {s : String} (htext : trim s.toList = w.text)
    (hrange : InInt64 w.value) :
    ((Json.str s).toInt64 = w.value ↔
        w.rest = [] ∨ w.value = int64Max ∨ FitsSignificand (digitsValue w.digits)) ∧
      (w.rest ≠ [] → (Json.str s).toInt64 =
        max int64Min (min int64Max
          (signed (w.sign == some '-') (roundWhole (digitsValue w.digits))))) ∧
      (∀ (context : Context) (key : String), context.lookup key = some (.str s) →
        (Field.keyed key .integer).apply context = .ok (.int (Json.str s).toInt64)) ∧
      (∀ declaration, DeclaredType.ofDeclaration declaration = .integer →
        Sqlite.converter (.str s) declaration = .ok (.int (Json.str s).toInt64)) := by
  have hcast : (Json.str s).toInt64 =
      if w.rest = [] then w.value
      else (Double.ofDecimal (w.sign == some '-') (digitsValue w.digits) 0).toInt64 := by
    rw [Json.toInt64, htext, w.readInt64?_text hrange, w.leadingNumber_text]
    split <;> rfl
  refine ⟨?_, ?_, ?_, ?_⟩
  · rw [hcast]
    split
    case isTrue hrest => exact iff_of_true rfl (.inl hrest)
    case isFalse hrest =>
      exact (Double.toInt64_ofDecimal_eq_iff hrange).trans (or_iff_right hrest).symm
  · intro hrest
    rw [hcast, if_neg hrest, Double.toInt64_ofDecimal_whole _ (log2_lt_of_signed hrange)]
  · intro context key hkey
    simp only [Field.apply, hkey, Transform.apply]
  · intro declaration hinteger
    simp only [Sqlite.converter, Sqlite.convert, hinteger, Sqlite.convertTo]

/-- An integer of 54 bits that ends in a zero bit. -/
def cents : LeadingInteger where
  sign := some '-'
  digits := "9007199254740994".toList
  rest := " cents".toList
  isSign_of_eq := by
    intro c hc
    cases hc
    rfl
  digits_ne_nil := by decide
  allDigits := List.all_eq_true.mp rfl
  endsInteger := by
    intro c hc
    cases hc
    decide

theorem toInt64_leadingInteger_cents :
    trim " -9007199254740994 cents".toList = cents.text ∧ InInt64 cents.value ∧
      (Json.str " -9007199254740994 cents").toInt64 = -9007199254740994 ∧
      Sqlite.converter (.str " -9007199254740994 cents") "BIGINT" =
        .ok (.int (-9007199254740994)) := by
  have htext : trim " -9007199254740994 cents".toList = cents.text := by decide +kernel
  have hrange : InInt64 cents.value := by decide
  have hfits : FitsSignificand (digitsValue cents.digits) := ⟨4503599627370497, 1, by decide⟩
  obtain ⟨hexact, -, -, hconverter⟩ := toInt64_leadingInteger htext hrange
  have hvalue : (Json.str " -9007199254740994 cents").toInt64 = -9007199254740994 :=
    hexact.mpr (.inr (.inr hfits))
  have hbigint := hconverter "BIGINT" (by decide)
  rw [hvalue] at hbigint
  exact ⟨htext, hrange, hvalue, hbigint⟩

/-- The least integer of which binary64 drops a bit, with letters behind it. -/
def oddTotal : LeadingInteger where
  sign := none
  digits := "9007199254740993".toList
  rest := "abc".toList
  isSign_of_eq := nofun
  digits_ne_nil := by decide
  allDigits := List.all_eq_true.mp rfl
  endsInteger := by
    intro c hc
    cases hc
    decide

/-- Letters behind an integer that is cast exactly without them change its last digit. -/
theorem toInt64_oddTotal :
    trim "9007199254740993abc".toList = oddTotal.text ∧ oddTotal.value = 9007199254740993 ∧
      (Json.str "9007199254740993abc").toInt64 = 9007199254740992 ∧
      (Json.str "9007199254740993").toInt64 = 9007199254740993 := by
  decide +kernel

end RowShape
