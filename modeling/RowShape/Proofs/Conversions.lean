import RowShape.Proofs.Conformance
import RowShape.Sqlite.Conversion

/-!
Conversion by declared type beside the fields. Where a class of types has a field of its own,
the two convert alike; where a class stands for one JSON type, its values are what conversion
leaves as they are, so that converting again changes nothing.
-/

namespace RowShape

namespace DeclaredType

/-- The transform of the field that belongs to a class. -/
def transform? : DeclaredType → Option Transform
  | integer => some .integer
  | real => some .number
  | boolean => some .boolean
  | datetime => some .datetime
  | json => some .json
  | numeric | text | blob => none

/-- The classes that stand for one JSON type. -/
def ofOneType : List DeclaredType := [integer, real, numeric, text, blob, boolean]

/-- The values of that type. -/
inductive Holds : DeclaredType → Json → Prop where
  | integer {i : Int} (h : InInt64 i) : Holds integer (.int i)
  | real (f : Finite) : Holds real (.num (.float f))
  | numeric (n : Number) : Holds numeric (.num n)
  | text (s : String) : Holds text (.str s)
  | blob (s : String) : Holds blob (.str s)
  | boolean (b : Bool) : Holds boolean (.bool b)

end DeclaredType

namespace Sqlite

open DeclaredType

theorem toText_str (s : String) : toText (.str s) = .str s := by
  rw [toText, Json.plain, String.ofList_toList]

theorem toInt64_int {i : Int} (h : InInt64 i) : (Json.int i).toInt64 = i := by
  simp [Json.int, Json.toInt64, Number.toInt64?, show int64Min ≤ i ∧ i ≤ int64Max from h]

theorem convertTo_of_holds {t : DeclaredType} {v : Json} (h : t.Holds v) : convertTo v t = v := by
  cases h with
  | integer h => rw [convertTo, toInt64_int h]
  | real f => rfl
  | numeric n => rfl
  | text s | blob s => exact toText_str s
  | boolean b => rfl

/-- What a number is converted to, where binary64 has it. -/
theorem ofDouble_cases (x : Double) :
    (∃ f, x = .finite f ∧ Json.ofDouble x = .num (.float f)) ∨
      (∀ f, x ≠ .finite f) ∧ Json.ofDouble x = .null := by
  cases x with
  | finite f => exact .inl ⟨f, rfl, rfl⟩
  | infinite negative => exact .inr ⟨nofun, rfl⟩
  | nan => exact .inr ⟨nofun, rfl⟩

theorem holds_toNumeric (v : Json) :
    numeric.Holds (toNumeric v) ∨ toNumeric v = .null ∧ ∀ f, v.toDouble ≠ .finite f := by
  cases v with
  | num n => exact .inl (.numeric n)
  | str s =>
      rw [toNumeric]
      split
      · exact .inl (.numeric _)
      · rcases ofDouble_cases (Json.str s).toDouble with ⟨f, -, hfinite⟩ | ⟨hrange, hnull⟩
        · rw [hfinite]
          exact .inl (.numeric _)
        · exact .inr ⟨hnull, hrange⟩
  | null | bool b | arr items | obj members => exact .inl (.numeric _)

/-- A value is converted to one of the type of the class, or to null for want of a number. -/
theorem holds_convertTo {t : DeclaredType} (ht : t ∈ ofOneType) (v : Json) :
    t.Holds (convertTo v t) ∨
      convertTo v t = .null ∧ (t = .real ∨ t = .numeric) ∧ ∀ f, v.toDouble ≠ .finite f := by
  cases t with
  | integer => exact .inl (.integer v.inInt64_toInt64)
  | real =>
      rw [convertTo]
      rcases ofDouble_cases v.toDouble with ⟨f, -, hfinite⟩ | ⟨hrange, hnull⟩
      · rw [hfinite]
        exact .inl (.real f)
      · exact .inr ⟨hnull, .inl rfl, hrange⟩
  | numeric =>
      rcases holds_toNumeric v with h | ⟨hnull, hrange⟩
      · exact .inl h
      · exact .inr ⟨hnull, .inr rfl, hrange⟩
  | text => exact .inl (.text _)
  | blob => exact .inl (.blob _)
  | boolean => exact .inl (.boolean _)
  | datetime | json => exact absurd ht (by decide)

theorem convert_of_ne_null {v : Json} (hv : v ≠ .null) (declaration : String) :
    convert v declaration = convertTo v (.ofDeclaration declaration) := by
  cases v with
  | null => exact absurd rfl hv
  | bool b | num n | str s | arr items | obj members => rfl

theorem holds_convert {declaration : String}
    (ht : ofDeclaration declaration ∈ ofOneType) (v : Json) :
    (ofDeclaration declaration).Holds (convert v declaration) ∨
      convert v declaration = .null ∧
        (v = .null ∨ (ofDeclaration declaration = .real ∨ ofDeclaration declaration = .numeric) ∧
          ∀ f, v.toDouble ≠ .finite f) := by
  by_cases hv : v = .null
  · rw [hv]
    exact .inr ⟨rfl, .inl rfl⟩
  · rw [convert_of_ne_null hv]
    rcases holds_convertTo ht v with h | ⟨hnull, hrange⟩
    · exact .inl h
    · exact .inr ⟨hnull, .inr hrange⟩

theorem convert_of_holds {declaration : String} {v : Json}
    (h : (ofDeclaration declaration).Holds v) : convert v declaration = v := by
  by_cases hv : v = .null
  · rw [hv, convert]
  · rw [convert_of_ne_null hv, convertTo_of_holds h]

theorem convert_convert {declaration : String} (ht : ofDeclaration declaration ∈ ofOneType)
    (v : Json) : convert (convert v declaration) declaration = convert v declaration := by
  rcases holds_convert ht v with h | ⟨hnull, -⟩
  · exact convert_of_holds h
  · rw [hnull, convert]

theorem apply_of_transform? {t : DeclaredType} {transform : Transform}
    (h : t.transform? = some transform) (context : Context) (v : Json) :
    transform.apply context v = .ok (convertTo v t) := by
  cases t with
  | integer | real | boolean | datetime => cases h; rfl
  | json =>
      cases h
      rw [convertTo, decode_eq_parseText, Transform.apply]
  | numeric | text | blob => cases h

/-- A column that is typed by its declaration renders as the field of its class does. -/
theorem apply_typed {declaration : String} {transform : Transform}
    (h : (ofDeclaration declaration).transform? = some transform) (context : Context)
    (key : String) :
    (Field.keyed key (.typed declaration converter)).apply context =
      (Field.keyed key transform).apply context := by
  rw [Field.apply, Field.apply]
  split
  · rfl
  · rfl
  case h_3 v hv hlookup =>
    rw [apply_of_transform? h, Transform.apply, converter, convert_of_ne_null hv]

/-- Conversion always succeeds and goes as the field of the class where there is one. Where
the class stands for one JSON type, a value becomes one of that type, or null when it is null
or a number is asked for that binary64 does not have, and stays that under conversion. -/
theorem converter_stable (declaration : String) :
    (∀ v, converter v declaration = .ok (convert v declaration)) ∧
      (∀ transform, (ofDeclaration declaration).transform? = some transform →
        ∀ (context : Context) (key : String),
          (Field.keyed key (.typed declaration converter)).apply context =
            (Field.keyed key transform).apply context) ∧
      (ofDeclaration declaration ∈ ofOneType → ∀ v,
        convert (convert v declaration) declaration = convert v declaration ∧
        ((ofDeclaration declaration).Holds (convert v declaration) ∨
          convert v declaration = .null ∧
            (v = .null ∨
              (ofDeclaration declaration = .real ∨ ofDeclaration declaration = .numeric) ∧
                ∀ f, v.toDouble ≠ .finite f))) := by
  refine ⟨fun v => rfl, ?_, ?_⟩
  · intro transform h context key
    exact apply_typed h context key
  · intro ht v
    exact ⟨convert_convert ht v, holds_convert ht v⟩

/-- A price with a currency behind it, in a column that has a precision. -/
theorem converter_stable_price :
    (Field.keyed "price" (.typed "Double Precision (10)" converter)).apply
        (.ofRow [("price", .str " 1e400 EUR")]) =
      (Field.keyed "price" .number).apply (.ofRow [("price", .str " 1e400 EUR")]) ∧
    convert (convert (.str "12.50 EUR") "Double Precision (10)") "Double Precision (10)" =
      convert (.str "12.50 EUR") "Double Precision (10)" := by
  have hreal : ofDeclaration "Double Precision (10)" = .real := by decide
  obtain ⟨-, hfield, hstable⟩ := converter_stable "Double Precision (10)"
  rw [hreal] at hfield hstable
  exact ⟨hfield .number rfl _ _, (hstable (by decide) _).1⟩

end Sqlite

end RowShape
