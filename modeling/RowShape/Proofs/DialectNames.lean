import RowShape.Config
import RowShape.Proofs.LetterCase
import RowShape.Proofs.TomlTexts

/-!
The names of dialects, and how a configuration reads them. No name belongs to two dialects,
whatever the case of its letters. A configuration knows the same names, but in lower case only.
-/

namespace RowShape

/-- Without ASCII letters in upper case. -/
def IsLowerCase (s : String) : Prop := ∀ c ∈ s.toList, c.isUpper = false

instance (s : String) : Decidable (IsLowerCase s) :=
  List.decidableBAll (fun c : Char => c.isUpper = false) s.toList

theorem IsLowerCase.foldCase_toList {s : String} (h : IsLowerCase s) :
    foldCase s.toList = s.toList := by
  rw [foldCase, List.map_congr_left fun c hc => ?_, List.map_id']
  exact toLower_of_isUpper_eq_false (h c hc)

/-- A text in lower case is the only one with its letters. -/
theorem IsLowerCase.eq_of_sameLetters {s t : String} (hs : IsLowerCase s) (ht : IsLowerCase t)
    (h : SameLetters s.toList t.toList) : s = t := by
  rw [sameLetters_iff, hs.foldCase_toList, ht.foldCase_toList] at h
  exact String.toList_inj.mp h

namespace Dialect

theorem mem_all (d : Dialect) : d ∈ all := by cases d <;> decide

/-- A search for what only one dialect has finds that dialect. -/
theorem find?_all_eq_some_iff {p : Dialect → Bool}
    (hunique : ∀ d e, p d = true → p e = true → d = e) {d : Dialect} :
    all.find? p = some d ↔ p d = true := by
  constructor
  · exact List.find?_some
  · intro hd
    cases hfind : all.find? p with
    | none => exact absurd hd (List.find?_eq_none.mp hfind d (mem_all d))
    | some e => rw [hunique d e hd (List.find?_some hfind)]

theorem isLowerCase_of_mem_names {d : Dialect} {n : String} (h : n ∈ d.names) :
    IsLowerCase n := by
  have hall : ∀ m ∈ d.names, IsLowerCase m := by cases d <;> decide
  exact hall n h

theorem eq_of_mem_names {d e : Dialect} {n : String} (hd : n ∈ d.names) (he : n ∈ e.names) :
    d = e := by
  have hall : ∀ m ∈ d.names, m ∈ e.names → d = e := by cases d <;> cases e <;> decide
  exact hall n hd he

theorem ofExactName?_eq_some_iff {s : String} {d : Dialect} :
    ofExactName? s = some d ↔ s ∈ d.names := by
  rw [ofExactName?, find?_all_eq_some_iff, List.contains_iff_mem]
  intro d e hd he
  exact eq_of_mem_names (List.contains_iff_mem.mp hd) (List.contains_iff_mem.mp he)

theorem any_names_iff {s : String} {d : Dialect} :
    (d.names.any fun n => equalFoldingCase n.toList s.toList) = true ↔
      ∃ n ∈ d.names, SameLetters n.toList s.toList := by
  simp only [List.any_eq_true, equalFoldingCase, beq_iff_eq, sameLetters_iff]

/-- A dialect is found under exactly the spellings of its names. -/
theorem ofName?_eq_some_iff {s : String} {d : Dialect} :
    ofName? s = some d ↔ ∃ n ∈ d.names, SameLetters n.toList s.toList := by
  rw [ofName?, find?_all_eq_some_iff, any_names_iff]
  intro d e hd he
  -- Two names with the letters of `s` are equal, since all names are in lower case.
  obtain ⟨n, hn, hns⟩ := any_names_iff.mp hd
  obtain ⟨m, hm, hms⟩ := any_names_iff.mp he
  have hnm : SameLetters n.toList m.toList :=
    sameLetters_iff.mpr ((sameLetters_iff.mp hns).trans (sameLetters_iff.mp hms).symm)
  have heq := (isLowerCase_of_mem_names hn).eq_of_sameLetters (isLowerCase_of_mem_names hm) hnm
  exact eq_of_mem_names hn (heq ▸ hm)

/-- The exact reader misses the spellings with a letter in upper case, and nothing else. -/
theorem ofExactName?_eq_some_iff_isLowerCase {s : String} {d : Dialect} :
    ofExactName? s = some d ↔ IsLowerCase s ∧ ofName? s = some d := by
  rw [ofExactName?_eq_some_iff, ofName?_eq_some_iff]
  constructor
  · intro hs
    exact ⟨isLowerCase_of_mem_names hs, s, hs, sameLetters_iff.mpr rfl⟩
  · rintro ⟨hlower, n, hn, hns⟩
    rwa [← (isLowerCase_of_mem_names hn).eq_of_sameLetters hlower hns]

theorem ofExactName?_eq_none_iff {s : String} :
    ofExactName? s = none ↔ ¬ IsLowerCase s ∨ ofName? s = none := by
  simp only [Option.eq_none_iff_forall_ne_some, ne_eq, ofExactName?_eq_some_iff_isLowerCase]
  grind

end Dialect

namespace Config

/-- The entries next to the dialect hold texts where they are present. -/
def PathsAreTexts (table : Toml.Table) : Prop :=
  (textEntry table "database").isSome ∧ (textEntry table "definitions").isSome

theorem ofTable?_named {table : Toml.Table} {s : String}
    (hdialect : table.lookup "dialect" = some (.text s)) (hpaths : PathsAreTexts table) :
    ∃ database definitions, ofTable? table =
      (Dialect.ofExactName? s).map fun d => ⟨d, database, definitions, none⟩ := by
  obtain ⟨database, hdatabase⟩ := Option.isSome_iff_exists.mp hpaths.1
  obtain ⟨definitions, hdefinitions⟩ := Option.isSome_iff_exists.mp hpaths.2
  refine ⟨database, definitions.getD defaultDefinitions, ?_⟩
  have hname : dialectName? table = some (some s) := by rw [dialectName?, hdialect]
  simp only [ofTable?, hname, hdatabase, hdefinitions, Option.bind_eq_bind, Option.bind_some]
  cases Dialect.ofExactName? s <;> rfl

theorem ofText_eq {text s : String} {table : Toml.Table}
    (hread : Toml.read? text.toList = some table)
    (hdialect : table.lookup "dialect" = some (.text s)) (hpaths : PathsAreTexts table) :
    (Dialect.ofExactName? s = none ∧ ofText text = .error .malformed) ∨
      ∃ c, Dialect.ofExactName? s = some c.dialect ∧ ofText text = .ok c := by
  obtain ⟨database, definitions, htable⟩ := ofTable?_named hdialect hpaths
  rw [ofText, hread, Option.bind_some, htable]
  cases hname : Dialect.ofExactName? s with
  | none => exact .inl ⟨rfl, rfl⟩
  | some d => exact .inr ⟨_, rfl, rfl⟩

theorem isBareKey_dialect : Toml.IsBareKey "dialect" := by decide

/-- The entries that state a configuration. -/
def entries (c : Config) : List (String × String) :=
  ("dialect", c.dialect.name) ::
    (c.database.toList.map fun path => ("database", path)) ++ [("definitions", c.definitions)]

/-- What a configuration says of the dialect and the paths can be written, and reads back. -/
theorem ofText_entries {c : Config} (hbase : c.base = none) :
    ofText (String.ofList (Toml.textLines c.entries)) = .ok c := by
  obtain ⟨dialect, database, definitions, base⟩ := c
  have hname : Dialect.ofExactName? dialect.name = some dialect :=
    Dialect.ofExactName?_eq_some_iff.mpr (by cases dialect <;> decide)
  have hdatabase : Toml.IsBareKey "database" := by decide
  have hdefinitions : Toml.IsBareKey "definitions" := by decide
  subst hbase
  rw [ofText, String.toList_ofList, Toml.read?_textLines]
  · cases database with
    | none => simp [entries, ofTable?, dialectName?, textEntry, List.lookup_cons, hname]
    | some path => simp [entries, ofTable?, dialectName?, textEntry, List.lookup_cons, hname]
  · cases database <;> simp [entries, isBareKey_dialect, hdatabase, hdefinitions]
  · cases database <;> simp [entries]

/-- Every text can stand as the dialect of a configuration. It is accepted if it names a dialect
in lower case, and refused else, even where another case of the same letters names one. -/
theorem ofText_dialectName (s : String) :
    (∃ text : String, Toml.read? text.toList = some [("dialect", .text s)]) ∧
      ∀ (text : String) (table : Toml.Table), Toml.read? text.toList = some table →
        table.lookup "dialect" = some (.text s) → PathsAreTexts table →
          (∀ d, (∃ c, ofText text = .ok c ∧ c.dialect = d) ↔
            IsLowerCase s ∧ Dialect.ofName? s = some d) ∧
          (ofText text = .error .malformed ↔ ¬ IsLowerCase s ∨ Dialect.ofName? s = none) := by
  constructor
  · refine ⟨String.ofList (Toml.textLine "dialect" s), ?_⟩
    rw [String.toList_ofList, Toml.read?_textLine isBareKey_dialect]
  · intro text table hread hdialect hpaths
    simp only [← Dialect.ofExactName?_eq_some_iff_isLowerCase, ← Dialect.ofExactName?_eq_none_iff]
    cases ofText_eq hread hdialect hpaths with
    | inl hrefused => simp [hrefused]
    | inr haccepted =>
        obtain ⟨c, hname, haccepted⟩ := haccepted
        simp [hname, haccepted]

/-- One name in two cases. -/
theorem ofText_dialectName_mariadb :
    (∃ c, ofText "dialect = \"mariadb\"\n" = .ok c ∧ c.dialect = .mysql) ∧
      ofText "dialect = \"MariaDB\"\n" = .error .malformed := by
  have hlower : Toml.read? "dialect = \"mariadb\"\n".toList =
      some [("dialect", .text "mariadb")] := Toml.read?_textLine isBareKey_dialect "mariadb"
  have hmixed : Toml.read? "dialect = \"MariaDB\"\n".toList =
      some [("dialect", .text "MariaDB")] := Toml.read?_textLine isBareKey_dialect "MariaDB"
  have haccepts := ((ofText_dialectName "mariadb").2 _ _ hlower rfl ⟨rfl, rfl⟩).1 .mysql
  have hrefuses := ((ofText_dialectName "MariaDB").2 _ _ hmixed rfl ⟨rfl, rfl⟩).2
  exact ⟨haccepts.mpr ⟨by decide, by decide⟩, hrefuses.mpr (.inl (by decide))⟩

theorem ofText_capitals :
    Dialect.ofName? "SQLite" = some .sqlite ∧
      ofText "dialect = \"SQLite\"" = .error .malformed := by
  decide +kernel

end Config

end RowShape
