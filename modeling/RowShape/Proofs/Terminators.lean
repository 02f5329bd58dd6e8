import RowShape.Proofs.Blanks
import RowShape.Sql.Dialect

/-!
What paging cuts off the end of a query. Blanks and semicolons behind the statement all go as
long as the semicolons stand together; where blanks part them, one of them stays in front of
the clause.
-/

namespace RowShape

/-- The characters that may stand behind a statement without belonging to it. -/
def isTerminator (c : Char) : Bool := isBlank c || c == ';'

/-- Blanks, semicolons in one piece, and blanks again. -/
def SemicolonsTogether (run : List Char) : Prop :=
  ∃ before marks after, run = before ++ marks ++ after ∧ (∀ c ∈ before, isBlank c = true) ∧
    (∀ c ∈ marks, c = ';') ∧ ∀ c ∈ after, isBlank c = true

theorem SemicolonsTogether.isTerminator {run : List Char} (h : SemicolonsTogether run) :
    ∀ c ∈ run, isTerminator c = true := by
  obtain ⟨before, marks, after, rfl, hbefore, hmarks, hafter⟩ := h
  intro c hc
  rw [RowShape.isTerminator, Bool.or_eq_true, beq_iff_eq]
  rw [List.mem_append, List.mem_append] at hc
  cases hc with
  | inr hc => exact .inl (hafter c hc)
  | inl hc =>
      cases hc with
      | inl hc => exact .inl (hbefore c hc)
      | inr hc => exact .inr (hmarks c hc)

theorem isBlank_semicolon : isBlank ';' = false := by decide

/-- A text that ends in none of the characters stays as it is. -/
theorem rdropWhile_of_bare {p : Char → Bool} (hp : ∀ c, p c = true → isTerminator c = true)
    {base : List Char} (hbase : base.rdropWhile isTerminator = base) :
    base.rdropWhile p = base := by
  rw [List.rdropWhile_eq_self_iff] at hbase ⊢
  intro hne h
  exact hbase hne (hp _ h)

theorem isTerminator_of_isBlank (c : Char) (h : isBlank c = true) : isTerminator c = true := by
  rw [isTerminator, h, Bool.true_or]

theorem isTerminator_of_semicolon (c : Char) (h : (c == ';') = true) : isTerminator c = true := by
  rw [isTerminator, h, Bool.or_true]

theorem isTerminator_of_getLast? {s : List Char} {c : Char}
    (h : (s.rdropWhile isTerminator).getLast? = some c) : isTerminator c = false := by
  have hne : s.rdropWhile isTerminator ≠ [] := by
    intro hnil
    rw [hnil] at h
    cases h
  rw [List.getLast?_eq_some_getLast hne] at h
  cases h
  exact Bool.eq_false_iff.mpr (List.rdropWhile_last_not isTerminator s hne)

namespace Dialect

theorem withoutTerminator_eq (sql : List Char) :
    withoutTerminator sql =
      ((sql.rdropWhile isBlank).rdropWhile (· == ';')).rdropWhile isBlank := rfl

/-- What is cut off is a run whose semicolons stand together. -/
theorem exists_run (sql : List Char) :
    ∃ run, sql = withoutTerminator sql ++ run ∧ SemicolonsTogether run := by
  obtain ⟨after, hafter, hafterAll⟩ := exists_dropped isBlank sql
  obtain ⟨marks, hmarks, hmarksAll⟩ := exists_dropped (· == ';') (sql.rdropWhile isBlank)
  obtain ⟨before, hbefore, hbeforeAll⟩ :=
    exists_dropped isBlank ((sql.rdropWhile isBlank).rdropWhile (· == ';'))
  refine ⟨before ++ marks ++ after, ?_, before, marks, after, rfl, hbeforeAll, ?_, hafterAll⟩
  · rw [withoutTerminator_eq, ← List.append_assoc, ← List.append_assoc, ← hbefore, ← hmarks,
      ← hafter]
  · exact fun c hc => beq_iff_eq.mp (hmarksAll c hc)

/-- A run whose semicolons stand together is cut off whole. -/
theorem withoutTerminator_append {base run : List Char}
    (hbase : base.rdropWhile isTerminator = base) (hrun : SemicolonsTogether run) :
    withoutTerminator (base ++ run) = base := by
  have hblank := rdropWhile_of_bare isTerminator_of_isBlank hbase
  have hsemicolon := rdropWhile_of_bare isTerminator_of_semicolon hbase
  obtain ⟨before, marks, after, rfl, hbefore, hmarks, hafter⟩ := hrun
  rw [withoutTerminator_eq, ← List.append_assoc, rdropWhile_append_of_all hafter,
    ← List.append_assoc]
  by_cases hne : marks = []
  · rw [hne, List.append_nil, rdropWhile_append_of_all hbefore, hblank, hsemicolon, hblank]
  · have hkept : ∀ c ∈ marks, isBlank c = false := by
      intro c hc
      rw [hmarks c hc, isBlank_semicolon]
    rw [rdropWhile_append_of_none hne hkept,
      rdropWhile_append_of_all fun c hc => beq_iff_eq.mpr (hmarks c hc)]
    by_cases hnone : before = []
    · rw [hnone, List.append_nil, hsemicolon, hblank]
    · have hblanks : ∀ c ∈ before, (c == ';') = false := by
        intro c hc
        rw [beq_eq_false_iff_ne]
        rintro rfl
        exact absurd (hbefore _ hc) (by decide)
      rw [rdropWhile_append_of_none hnone hblanks, rdropWhile_append_of_all hbefore, hblank]

theorem withoutTerminator_of_bare {base : List Char}
    (hbase : base.rdropWhile isTerminator = base) : withoutTerminator base = base := by
  have hnone : SemicolonsTogether [] := ⟨[], [], [], rfl, by simp⟩
  have h := withoutTerminator_append hbase hnone
  rwa [List.append_nil] at h

theorem withoutTerminator_of_together {sql : List Char}
    (h : SemicolonsTogether (sql.rtakeWhile isTerminator)) :
    withoutTerminator sql = sql.rdropWhile isTerminator := by
  calc withoutTerminator sql
      = withoutTerminator (sql.rdropWhile isTerminator ++ sql.rtakeWhile isTerminator) := by
        rw [List.rdropWhile_append_rtakeWhile]
    _ = sql.rdropWhile isTerminator :=
        withoutTerminator_append (List.rdropWhile_idempotent _ _) h

/-- The query without the whole run behind it. -/
theorem rdropWhile_isTerminator (sql : List Char) :
    sql.rdropWhile isTerminator = (withoutTerminator sql).rdropWhile isTerminator := by
  obtain ⟨run, hsql, hrun⟩ := exists_run sql
  calc sql.rdropWhile isTerminator
      = (withoutTerminator sql ++ run).rdropWhile isTerminator := by rw [← hsql]
    _ = (withoutTerminator sql).rdropWhile isTerminator :=
        rdropWhile_append_of_all hrun.isTerminator

/-- Where blanks part the semicolons, what is left ends in one. -/
theorem getLast?_withoutTerminator {sql : List Char}
    (h : ¬ SemicolonsTogether (sql.rtakeWhile isTerminator)) :
    (withoutTerminator sql).getLast? = some ';' := by
  obtain ⟨run, hsql, hrun⟩ := exists_run sql
  by_cases hbare : (withoutTerminator sql).rdropWhile isTerminator = withoutTerminator sql
  · -- then the run that is cut off is all there is behind the statement
    have hall := List.rdropWhile_append_rtakeWhile (p := isTerminator) (l := sql)
    rw [rdropWhile_isTerminator, hbare] at hall
    have heq : sql.rtakeWhile isTerminator = run := List.append_cancel_left (hall.trans hsql)
    exact absurd (heq ▸ hrun) h
  · rw [List.rdropWhile_eq_self_iff, not_forall] at hbare
    obtain ⟨hne, hlast⟩ := hbare
    rw [not_not] at hlast
    have hblank : ¬ isBlank ((withoutTerminator sql).getLast hne) = true :=
      List.rdropWhile_last_not isBlank _ hne
    rw [isTerminator, Bool.or_eq_true, beq_iff_eq] at hlast
    rw [List.getLast?_eq_some_getLast hne, hlast.resolve_left hblank]

/-- A text that ends in a semicolon loses it. -/
theorem withoutTerminator_ne {base : List Char} (h : base.getLast? = some ';') :
    withoutTerminator base ≠ base := by
  intro hself
  have hne : base ≠ [] := by
    rintro rfl
    cases h
  have hlast : base.getLast hne = ';' := by
    rw [List.getLast?_eq_some_getLast hne] at h
    exact Option.some.inj h
  have hblank : base.rdropWhile isBlank = base := by
    rw [List.rdropWhile_eq_self_iff]
    intro hl
    rw [hlast, isBlank_semicolon]
    exact Bool.false_ne_true
  rw [withoutTerminator_eq, hblank] at hself
  have hprefix : base <+: base.rdropWhile (· == ';') := by
    conv_lhs => rw [← hself]
    exact List.rdropWhile_prefix isBlank _
  have hwhole : base.rdropWhile (· == ';') = base :=
    (List.rdropWhile_prefix _ _).eq_of_length_le hprefix.length_le
  rw [List.rdropWhile_eq_self_iff] at hwhole
  exact hwhole hne (beq_iff_eq.mpr hlast)

/-- A clause behind a query, after a blank. -/
def withClause (base clause : List Char) : String :=
  String.ofList (if clause = [] then base else base ++ ' ' :: clause)

theorem paginate_eq (dialect : Dialect) (sql : String) (limit offset : Option Nat) :
    dialect.paginate sql limit offset =
      withClause (withoutTerminator sql.toList) (dialect.limitClause limit offset) := by
  simp only [paginate, withClause]
  cases dialect.limitClause limit offset <;> rfl

theorem paginate_none (dialect : Dialect) (sql : String) :
    dialect.paginate sql none none = String.ofList (withoutTerminator sql.toList) := by
  rw [paginate_eq]
  cases dialect <;> rfl

/-- The clause comes behind the query without the whole run of blanks and semicolons at its end
if the semicolons of that run stand together. If blanks part them, a semicolon is left in front
of the clause, and paging once more cuts off more. -/
theorem paginate_terminators (dialect : Dialect) (sql : String) (limit offset : Option Nat) :
    let bare := sql.toList.rdropWhile isTerminator
    let run := sql.toList.rtakeWhile isTerminator
    let clause := dialect.limitClause limit offset
    (SemicolonsTogether run →
      dialect.paginate sql limit offset = withClause bare clause ∧
      (∀ c, bare.getLast? = some c → isTerminator c = false) ∧
      dialect.paginate (dialect.paginate sql none none) none none =
        dialect.paginate sql none none ∧
      ∀ run', SemicolonsTogether run' →
        dialect.paginate (String.ofList (bare ++ run')) limit offset =
          dialect.paginate sql limit offset) ∧
    (¬ SemicolonsTogether run →
      (∃ base, dialect.paginate sql limit offset = withClause base clause ∧ bare <+: base ∧
        base.getLast? = some ';') ∧
      dialect.paginate (dialect.paginate sql none none) none none ≠
        dialect.paginate sql none none) := by
  intro bare run clause
  have hbare : bare.rdropWhile isTerminator = bare := List.rdropWhile_idempotent _ _
  constructor
  · intro hrun
    have hsql : withoutTerminator sql.toList = bare := withoutTerminator_of_together hrun
    refine ⟨by rw [paginate_eq, hsql], ?_, ?_, ?_⟩
    · exact fun c hc => isTerminator_of_getLast? hc
    · rw [paginate_none, paginate_none, String.toList_ofList, hsql, withoutTerminator_of_bare hbare]
    · intro run' hrun'
      have hcut := withoutTerminator_append hbare hrun'
      rw [paginate_eq, paginate_eq, String.toList_ofList, hcut, hsql]
  · intro hrun
    have hlast := getLast?_withoutTerminator hrun
    have hprefix : bare <+: withoutTerminator sql.toList := by
      change sql.toList.rdropWhile isTerminator <+: _
      rw [rdropWhile_isTerminator]
      exact List.rdropWhile_prefix _ _
    refine ⟨⟨_, paginate_eq dialect sql limit offset, hprefix, hlast⟩, ?_⟩
    rw [paginate_none, paginate_none, String.toList_ofList]
    intro heq
    exact withoutTerminator_ne hlast (String.ofList_inj.mp heq)

/-- Two semicolons between blanks, and two that a blank parts. -/
theorem paginate_terminators_twoSemicolons :
    sqlite.paginate "SELECT id FROM news ;; \n" (some 2) none = "SELECT id FROM news LIMIT 2" ∧
      sqlite.paginate (sqlite.paginate "SELECT 1; ;" none none) none none ≠
        sqlite.paginate "SELECT 1; ;" none none := by
  constructor
  · have hrun : SemicolonsTogether
        ("SELECT id FROM news ;; \n".toList.rtakeWhile isTerminator) :=
      ⟨[' '], [';', ';'], [' ', '\n'], by decide +kernel, List.all_eq_true.mp rfl,
        by simp, List.all_eq_true.mp rfl⟩
    exact ((paginate_terminators sqlite "SELECT id FROM news ;; \n" (some 2) none).1 hrun).1.trans
      (by decide +kernel)
  · apply ((paginate_terminators sqlite "SELECT 1; ;" none none).2 _).2
    intro hrun
    have hwhole := ((paginate_terminators sqlite "SELECT 1; ;" none none).1 hrun).1
    exact absurd hwhole (by decide +kernel)

/-- A blank between two semicolons keeps the first of them, and the clause after it is no longer
part of the statement; paging the result cuts off that one, too. -/
theorem paginate_partedSemicolons :
    "SELECT 1; ;".toList.rdropWhile isTerminator = "SELECT 1".toList ∧
      sqlite.paginate "SELECT 1; ;" (some 2) none = "SELECT 1; LIMIT 2" ∧
      sqlite.paginate "SELECT 1; ;" none none = "SELECT 1;" ∧
      sqlite.paginate "SELECT 1;" none none = "SELECT 1" := by
  decide +kernel

end Dialect

end RowShape
