import RowShape.Proofs.JsonText
import RowShape.Proofs.WholeNumbers
import RowShape.Sqlite.Conversion
import RowShape.Sqlite.Database

/-!
What is read back from a cell that a value was bound to: the value itself where a cell can
hold it, and for arrays and objects the text from which reading JSON restores them.
-/

namespace RowShape

/-- An integer whose highest bit is the last of 64 is in the range of binary64. -/
theorem Double.ofInt_eq_finite {i : Int} (hlow : int64Max < i) (hhigh : i ≤ uint64Max) :
    ∃ f, ofInt i = .finite f := by
  simp only [int64Max] at hlow
  simp only [uint64Max] at hhigh
  have hn : i.natAbs ≠ 0 := by omega
  have hlog : i.natAbs.log2 < 64 := (Nat.log2_lt hn).mpr (by omega)
  obtain ⟨f, hf, -⟩ := exists_whole (decide (i < 0)) (show i.natAbs.log2 < 1023 by omega)
  exact ⟨f, hf⟩

namespace Sqlite

/-- What a value is read back as from the cell that it was bound to. -/
def readBack (v : Json) : Json := (Cell.ofJson v).toJson

theorem ofText?_selectValue : Statement.ofText? "SELECT ? AS value" =
    some ⟨some ⟨.operands [(.item (.slot 1), some "value")], none, [], none, none, none⟩,
      ⟨1, []⟩⟩ := by
  decide +kernel

/-- A database shows the one value that is bound and selected. -/
theorem answer_selectValue (db : Database) (v : Json) :
    db.answer ⟨"SELECT ? AS value", [⟨none, v⟩]⟩ = .ok [[("value", readBack v)]] := by
  simp only [Database.answer, ofText?_selectValue]
  rfl

theorem readBack_int {i : Int} (h : int64Min ≤ i ∧ i ≤ int64Max) : readBack (.int i) = .int i := by
  simp only [readBack, Cell.ofJson, Json.int, Number.toInt64?, h, and_self, ↓reduceIte, Cell.toJson]

theorem readBack_large {i : Int} (hlow : int64Max < i) (hhigh : i ≤ uint64Max) :
    ∃ f, readBack (.int i) = .num (.float f) ∧ Double.ofInt i = .finite f := by
  obtain ⟨f, hf⟩ := Double.ofInt_eq_finite hlow hhigh
  have hbeyond : ¬ (int64Min ≤ i ∧ i ≤ int64Max) := by omega
  refine ⟨f, ?_, hf⟩
  simp only [readBack, Cell.ofJson, Json.int, Number.toInt64?, hbeyond, ↓reduceIte,
    Number.toDouble, hf, Cell.toJson, Json.ofDouble]

theorem readBack_container {v : Json} (hkind : v.kind = .array ∨ v.kind = .object) :
    readBack v = .str v.text := by
  cases v with
  | arr items | obj members => rfl
  | null | bool b | num n | str s => rcases hkind with h | h <;> cases h

theorem parseText_text {v : Json} (hwf : v.WellFormed) (hfree : v.FloatFree)
    (hnested : v.NestedWithin Json.nestingLimit) : parseText (.str v.text) = v := by
  simp only [parseText, Json.text, String.toList_ofList, Json.read?_compact hwf hfree hnested,
    Option.getD_some]

theorem converter_json {s declaration : String}
    (hjson : DeclaredType.ofDeclaration declaration = .json) :
    converter (.str s) declaration = .ok (parseText (.str s)) := by
  simp only [converter, convert, hjson, convertTo, decode_eq_parseText]

/-- What is bound reads back as itself where SQLite can hold it: truth values become 0 and 1,
integers beyond signed 64 bits become reals, and containers become a text that both readers
of JSON columns take back to the container. -/
theorem readBack_spec {v : Json} (hv : v.WellFormed) :
    (∀ db : Database,
      db.answer ⟨"SELECT ? AS value", [⟨none, v⟩]⟩ = .ok [[("value", readBack v)]]) ∧
    ((v = .null ∨ (∃ s, v = .str s) ∨
        (∃ i, v = .int i ∧ int64Min ≤ i ∧ i ≤ int64Max) ∨ ∃ f, v = .num (.float f)) →
      readBack v = v) ∧
    (∀ b, v = .bool b → readBack v = .int (if b then 1 else 0)) ∧
    (∀ i, v = .int i → int64Max < i →
      ∃ f, readBack v = .num (.float f) ∧ Double.ofInt i = .finite f) ∧
    (v.kind = .array ∨ v.kind = .object → v.FloatFree → v.NestedWithin 127 →
      (∃ s, readBack v = .str s) ∧
      (∀ (context : Context) (key : String), context.lookup key = some (readBack v) →
        (Field.keyed key .json).apply context = .ok v) ∧
      ∀ declaration, DeclaredType.ofDeclaration declaration = .json →
        converter (readBack v) declaration = .ok v) := by
  refine ⟨fun db => answer_selectValue db v, ?_, ?_, ?_, ?_⟩
  · rintro (rfl | ⟨s, rfl⟩ | ⟨i, rfl, hi⟩ | ⟨f, rfl⟩)
    · rfl
    · rfl
    · exact readBack_int hi
    · rfl
  · rintro b rfl
    rfl
  · rintro i rfl hlow
    cases hv with
    | int h => exact readBack_large hlow h.2
  · intro hkind hfree hnested
    have hparse := parseText_text hv hfree hnested
    rw [readBack_container hkind]
    refine ⟨⟨_, rfl⟩, ?_, ?_⟩
    · intro context key hkey
      simp only [Field.apply, hkey, Transform.apply, hparse]
    · intro declaration hjson
      rw [converter_json hjson, hparse]

/-- Named with quotes, backslashes and control characters, and holding the largest and the
least integer. -/
def settings : Json :=
  .obj [("a \"quoted\" \\ name\n", .arr [.int 18446744073709551615, .int (-9223372036854775808)]),
    ("é\x01😀", .obj [("z", .null), ("a", .bool true)])]

theorem readBack_spec_settings :
    settings.WellFormed ∧ settings.FloatFree ∧ settings.NestedWithin 127 ∧
      ∃ s, readBack settings = .str s ∧
        (Field.keyed "settings" .json).apply (.ofRow [("settings", .str s)]) = .ok settings ∧
        converter (.str s) "JSONB" = .ok settings := by
  have hwf : settings.WellFormed := by
    refine .obj (by decide) ?_
    simp only [List.forall_mem_cons]
    refine ⟨.arr ?_, .obj (by decide) ?_, List.forall_mem_nil _⟩
    · simp only [List.forall_mem_cons]
      exact ⟨.int (by decide), .int (by decide), List.forall_mem_nil _⟩
    · simp only [List.forall_mem_cons]
      exact ⟨.null, .bool true, List.forall_mem_nil _⟩
  have hfree : settings.FloatFree := by
    refine .obj ?_
    simp only [List.forall_mem_cons]
    refine ⟨.arr ?_, .obj ?_, List.forall_mem_nil _⟩
    · simp only [List.forall_mem_cons]
      exact ⟨.int _, .int _, List.forall_mem_nil _⟩
    · simp only [List.forall_mem_cons]
      exact ⟨.null, .bool true, List.forall_mem_nil _⟩
  have hnested : settings.NestedWithin 127 := by
    refine .obj ?_
    simp only [List.forall_mem_cons]
    refine ⟨.arr ?_, .obj ?_, List.forall_mem_nil _⟩
    · simp only [List.forall_mem_cons]
      exact ⟨.num _ _, .num _ _, List.forall_mem_nil _⟩
    · simp only [List.forall_mem_cons]
      exact ⟨.null _, .bool _ true, List.forall_mem_nil _⟩
  obtain ⟨-, -, -, -, hcontainer⟩ := readBack_spec hwf
  obtain ⟨⟨s, hs⟩, hfield, hconverter⟩ := hcontainer (.inr rfl) hfree hnested
  rw [hs] at hfield hconverter
  exact ⟨hwf, hfree, hnested, s, hs, hfield _ _ rfl, hconverter _ (by decide)⟩

end Sqlite

end RowShape
