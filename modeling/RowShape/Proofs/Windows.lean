import RowShape.Proofs.Blanks
import RowShape.Sql.Dialect

/-!
What a paging clause asks for. Its words are read by the grammar of each dialect as a window of
rows, and the clause that is written for a limit and an offset is read as that window.
-/

namespace RowShape

inductive ClauseWord where
  | limit | offset | comma
  | number (n : Int)
deriving DecidableEq, Repr

namespace ClauseWord

def isDecimal (s : List Char) : Bool := !s.isEmpty && s.all Char.isDigit

/-- A whole number, a keyword in any mixture of cases, or a comma. -/
def ofRun? (run : List Char) : Option ClauseWord :=
  if isDecimal run then some (number (digitsValue run))
  else if run.head? = some '-' ∧ isDecimal run.tail then some (number (-(digitsValue run.tail)))
  else if equalFoldingCase run "limit".toList then some limit
  else if equalFoldingCase run "offset".toList then some offset
  else if run = [','] then some comma
  else none

def finish (run : List Char) : List (List Char) := if run.isEmpty then [] else [run.reverse]

/-- The runs between blanks, where a comma is a run of its own. The current run is kept
reversed. -/
def runs (run : List Char) : List Char → List (List Char)
  | [] => finish run
  | c :: cs =>
    if isBlank c then finish run ++ runs [] cs
    else if c = ',' then finish run ++ [','] :: runs [] cs
    else runs (c :: run) cs

def ofRuns? : List (List Char) → Option (List ClauseWord)
  | [] => some []
  | run :: rest => do return (← ofRun? run) :: (← ofRuns? rest)

def scan? (clause : List Char) : Option (List ClauseWord) := ofRuns? (runs [] clause)

/-- What is one run: neither empty nor with a blank or a comma in it. -/
structure IsRun (run : List Char) : Prop where
  ne_nil : run ≠ []
  noBlank : NoBlank run
  noComma : ',' ∉ run

theorem isRun_natText (n : Nat) : IsRun (natText n) where
  ne_nil := natText_ne_nil n
  noBlank := (allDigits_natText n).noBlank
  noComma := fun h => absurd (allDigits_natText n ',' h) (by decide)

theorem isDecimal_natText (n : Nat) : isDecimal (natText n) = true := by
  rw [isDecimal, List.all_eq_true.mpr (allDigits_natText n), Bool.and_true, Bool.not_eq_true',
    List.isEmpty_eq_false_iff]
  exact natText_ne_nil n

theorem ofRun?_natText (n : Nat) : ofRun? (natText n) = some (number n) := by
  rw [ofRun?, if_pos (isDecimal_natText n), digitsValue_natText]

theorem runs_append {run word : List Char} (hblank : NoBlank word) (hcomma : ',' ∉ word)
    (rest : List Char) : runs run (word ++ rest) = runs (word.reverse ++ run) rest := by
  induction word generalizing run with
  | nil => rfl
  | cons c cs ih =>
      obtain ⟨hc, hcs⟩ := noBlank_cons.mp hblank
      rw [List.mem_cons, not_or] at hcomma
      rw [List.cons_append, runs, hc, if_neg Bool.false_ne_true, if_neg (Ne.symm hcomma.1),
        ih hcs hcomma.2, List.reverse_cons, List.append_assoc]
      rfl

theorem IsRun.finish {run : List Char} (h : IsRun run) : finish (run.reverse ++ []) = [run] := by
  have hne : (run.reverse).isEmpty = false := by
    rw [List.isEmpty_eq_false_iff, ne_eq, List.reverse_eq_nil_iff]
    exact h.ne_nil
  rw [List.append_nil, ClauseWord.finish, hne, List.reverse_reverse]
  rfl

variable {run : List Char} {word : ClauseWord}

/-- A run at the end of a clause is its last word. -/
theorem scan?_end (h : IsRun run) (hword : ofRun? run = some word) :
    scan? run = some [word] := by
  have hruns : runs [] run = [run] := by
    have happend : runs [] (run ++ []) = runs (run.reverse ++ []) [] :=
      runs_append h.noBlank h.noComma []
    rw [List.append_nil] at happend
    rw [happend, runs, h.finish]
  simp only [scan?, hruns, ofRuns?, hword, Option.pure_def, Option.bind_eq_bind, Option.bind_some]

/-- A run in front of a blank is one word. -/
theorem scan?_blank (h : IsRun run) (hword : ofRun? run = some word) (rest : List Char) :
    scan? (run ++ ' ' :: rest) = (scan? rest).map (word :: ·) := by
  have hruns : runs [] (run ++ ' ' :: rest) = run :: runs [] rest := by
    rw [runs_append h.noBlank h.noComma, runs, h.finish]
    rfl
  simp only [scan?, hruns, ofRuns?, hword, Option.pure_def, Option.bind_eq_bind, Option.bind_some]
  cases ofRuns? (runs [] rest) <;> rfl

/-- A run in front of a comma and a blank is one word, and the comma is another. -/
theorem scan?_comma (h : IsRun run) (hword : ofRun? run = some word) (rest : List Char) :
    scan? (run ++ ',' :: ' ' :: rest) = (scan? rest).map (word :: comma :: ·) := by
  have hruns : runs [] (run ++ ',' :: ' ' :: rest) = run :: [','] :: runs [] rest := by
    rw [runs_append h.noBlank h.noComma, runs, h.finish]
    rfl
  have hcomma : ofRun? [','] = some comma := by decide
  simp only [scan?, hruns, ofRuns?, hword, hcomma, Option.pure_def, Option.bind_eq_bind,
    Option.bind_some]
  cases ofRuns? (runs [] rest) <;> rfl

end ClauseWord

/-- The rows after the first `skipped`, all of them or a number of them. -/
structure Window where
  skipped : Nat
  bound : Option Nat
deriving DecidableEq, Repr

def Window.apply {α : Type} (w : Window) (rows : List α) : List α :=
  match w.bound with
  | none => rows.drop w.skipped
  | some n => (rows.drop w.skipped).take n

namespace Dialect

open ClauseWord

/-- The largest number that a clause may hold: numbers are signed in SQLite and PostgreSQL, and
take 64 bits in all dialects. -/
def largestCount : Dialect → Nat
  | sqlite | postgresql => 2 ^ 63 - 1
  | mysql => 2 ^ 64 - 1

def count? (dialect : Dialect) (n : Int) : Option Nat :=
  if 0 ≤ n ∧ n ≤ dialect.largestCount then some n.toNat else none

/-- The number of rows that is asked for. In SQLite, -1 stands for all of them. -/
def bound? (dialect : Dialect) (n : Int) : Option (Option Nat) :=
  if dialect = sqlite ∧ n = -1 then some none else (dialect.count? n).map some

/-- The grammar of paging clauses. -/
def windowOfWords? (dialect : Dialect) (words : List ClauseWord) : Option Window :=
  match dialect, words with
  | _, [] => some ⟨0, none⟩
  | d, [.limit, .number n] => do return ⟨0, ← d.bound? n⟩
  | sqlite, [.limit, .number n, .offset, .number m] => do
    return ⟨← sqlite.count? m, ← sqlite.bound? n⟩
  | postgresql, [.limit, .number n, .offset, .number m] => do
    return ⟨← postgresql.count? m, ← postgresql.bound? n⟩
  | postgresql, [.offset, .number m] => do return ⟨← postgresql.count? m, none⟩
  | mysql, [.limit, .number m, .comma, .number n] => do
    return ⟨← mysql.count? m, ← mysql.bound? n⟩
  | _, _ => none

def window? (dialect : Dialect) (clause : List Char) : Option Window := do
  dialect.windowOfWords? (← scan? clause)

/-- The words that ask for at most `limit` rows after the first `offset`. -/
def limitWords (dialect : Dialect) (limit offset : Option Nat) : List ClauseWord :=
  match dialect, limit, offset with
  | _, none, none => []
  | _, some n, none => [.limit, .number n]
  | mysql, some n, some m => [.limit, .number m, .comma, .number n]
  | mysql, none, some m => [.limit, .number m, .comma, .number mysqlAllRows]
  | _, some n, some m => [.limit, .number n, .offset, .number m]
  | sqlite, none, some m => [.limit, .number (-1), .offset, .number m]
  | postgresql, none, some m => [.offset, .number m]

theorem isRun_limit : IsRun "LIMIT".toList := ⟨by decide, by decide, by decide⟩

theorem isRun_offset : IsRun "OFFSET".toList := ⟨by decide, by decide, by decide⟩

theorem isRun_minusOne : IsRun "-1".toList := ⟨by decide, by decide, by decide⟩

theorem scan?_limit (rest : List Char) :
    scan? ("LIMIT ".toList ++ rest) = (scan? rest).map (.limit :: ·) :=
  scan?_blank isRun_limit (by decide) rest

theorem scan?_offset (rest : List Char) :
    scan? ("OFFSET ".toList ++ rest) = (scan? rest).map (.offset :: ·) :=
  scan?_blank isRun_offset (by decide) rest

theorem scan?_natText (n : Nat) : scan? (natText n) = some [.number n] :=
  scan?_end (isRun_natText n) (ofRun?_natText n)

theorem scan?_natText_offset (n : Nat) (rest : List Char) :
    scan? (natText n ++ " OFFSET ".toList ++ rest) =
      (scan? rest).map (.number n :: .offset :: ·) := by
  have hnumber := scan?_blank (isRun_natText n) (ofRun?_natText n) ("OFFSET ".toList ++ rest)
  rw [scan?_offset, Option.map_map] at hnumber
  rw [List.append_assoc]
  exact hnumber

theorem scan?_natText_comma (n : Nat) (rest : List Char) :
    scan? (natText n ++ ", ".toList ++ rest) = (scan? rest).map (.number n :: .comma :: ·) := by
  rw [List.append_assoc]
  exact scan?_comma (isRun_natText n) (ofRun?_natText n) rest

theorem scan?_allRows (rest : List Char) :
    scan? ("LIMIT -1 OFFSET ".toList ++ rest) =
      (scan? rest).map (.limit :: .number (-1) :: .offset :: ·) := by
  have hminusOne : ofRun? "-1".toList = some (.number (-1)) := by decide
  have hnumber := scan?_blank isRun_minusOne hminusOne ("OFFSET ".toList ++ rest)
  have hlimit := scan?_limit ("-1 OFFSET ".toList ++ rest)
  rw [scan?_offset, Option.map_map] at hnumber
  change scan? ("-1 OFFSET ".toList ++ rest) = _ at hnumber
  rw [hnumber, Option.map_map] at hlimit
  exact hlimit

section
variable (n m : Nat)

theorem scan?_limitOnly : scan? ("LIMIT ".toList ++ natText n) = some [.limit, .number n] := by
  rw [scan?_limit, scan?_natText, Option.map_some]

theorem scan?_limitOffset :
    scan? ("LIMIT ".toList ++ natText n ++ " OFFSET ".toList ++ natText m) =
      some [.limit, .number n, .offset, .number m] := by
  rw [List.append_assoc, List.append_assoc, scan?_limit, ← List.append_assoc,
    scan?_natText_offset, scan?_natText, Option.map_some, Option.map_some]

theorem scan?_offsetLimit :
    scan? ("LIMIT ".toList ++ natText m ++ ", ".toList ++ natText n) =
      some [.limit, .number m, .comma, .number n] := by
  rw [List.append_assoc, List.append_assoc, scan?_limit, ← List.append_assoc,
    scan?_natText_comma, scan?_natText, Option.map_some, Option.map_some]

end

/-- A clause is written with the words of its request. -/
theorem scan?_limitClause (dialect : Dialect) (limit offset : Option Nat) :
    scan? (dialect.limitClause limit offset) = some (dialect.limitWords limit offset) := by
  cases offset with
  | none =>
      cases limit with
      | none => cases dialect <;> rfl
      | some n =>
          have hclause : dialect.limitClause (some n) none = "LIMIT ".toList ++ natText n := by
            cases dialect <;> rfl
          rw [hclause, scan?_limitOnly]
          cases dialect <;> rfl
  | some m =>
      cases limit with
      | none =>
          cases dialect with
          | sqlite =>
              have hclause : sqlite.limitClause none (some m) =
                "LIMIT -1 OFFSET ".toList ++ natText m := rfl
              rw [hclause, scan?_allRows, scan?_natText]
              rfl
          | postgresql =>
              have hclause : postgresql.limitClause none (some m) =
                "OFFSET ".toList ++ natText m := rfl
              rw [hclause, scan?_offset, scan?_natText]
              rfl
          | mysql =>
              have hclause : mysql.limitClause none (some m) =
                "LIMIT ".toList ++ natText m ++ ", ".toList ++ natText mysqlAllRows := rfl
              rw [hclause, scan?_offsetLimit]
              rfl
      | some n =>
          cases dialect with
          | sqlite | postgresql => exact scan?_limitOffset n m
          | mysql => exact scan?_offsetLimit n m

theorem count?_of_le {dialect : Dialect} {n : Nat} (h : n ≤ dialect.largestCount) :
    dialect.count? n = some n := by
  rw [count?, if_pos ⟨Int.natCast_nonneg n, Int.ofNat_le.mpr h⟩, Int.toNat_natCast]

theorem bound?_of_le {dialect : Dialect} {n : Nat} (h : n ≤ dialect.largestCount) :
    dialect.bound? n = some (some n) := by
  have hne : ¬ (dialect = sqlite ∧ (n : Int) = -1) := fun hboth => by
    have hnegative := hboth.2
    omega
  rw [bound?, if_neg hne, count?_of_le h, Option.map_some]

/-- Different requests are asked for in different words, but for a request of all rows that is
asked for as one of as many rows as there can be. -/
theorem limitWords_inj {dialect : Dialect} {limit limit' offset offset' : Option Nat}
    (h : dialect.limitWords limit offset = dialect.limitWords limit' offset') :
    (limit = limit' ∧ offset = offset') ∨
      (dialect = mysql ∧ offset.isSome ∧ offset = offset' ∧
        ((limit = none ∧ limit' = some mysqlAllRows) ∨
          (limit = some mysqlAllRows ∧ limit' = none))) := by
  cases dialect <;> cases limit <;> cases offset <;> cases limit' <;> cases offset' <;>
    simp [limitWords] at h ⊢ <;> omega

/-- A request whose numbers fit the dialect is read back as its window. Where a clause cannot
leave the number of rows open, it asks for as many as there can be. -/
theorem window?_limitClause {dialect : Dialect} {limit offset : Option Nat}
    (hlimit : ∀ n ∈ limit, n ≤ dialect.largestCount)
    (hoffset : ∀ m ∈ offset, m ≤ dialect.largestCount) :
    ∃ bound, dialect.window? (dialect.limitClause limit offset) = some ⟨offset.getD 0, bound⟩ ∧
      (bound = limit ∨ limit = none ∧ bound = some mysqlAllRows) := by
  simp only [window?, scan?_limitClause, Option.bind_eq_bind, Option.bind_some]
  cases offset with
  | none =>
      cases limit with
      | none => exact ⟨none, by cases dialect <;> rfl, .inl rfl⟩
      | some n =>
          have hbound := bound?_of_le (hlimit n rfl)
          refine ⟨some n, ?_, .inl rfl⟩
          cases dialect <;> simp [limitWords, windowOfWords?, hbound]
  | some m =>
      have hcount := count?_of_le (hoffset m rfl)
      cases limit with
      | some n =>
          have hbound := bound?_of_le (hlimit n rfl)
          refine ⟨some n, ?_, .inl rfl⟩
          cases dialect <;> simp [limitWords, windowOfWords?, hbound, hcount]
      | none =>
          cases dialect with
          | sqlite =>
              have hall : sqlite.bound? (-1) = some none := by decide
              exact ⟨none, by simp [limitWords, windowOfWords?, hall, hcount], .inl rfl⟩
          | postgresql => exact ⟨none, by simp [limitWords, windowOfWords?, hcount], .inl rfl⟩
          | mysql =>
              have hall : mysql.bound? mysqlAllRows = some (some mysqlAllRows) :=
                bound?_of_le (by decide)
              refine ⟨some mysqlAllRows, ?_, .inr ⟨rfl, rfl⟩⟩
              simp [limitWords, windowOfWords?, hall, hcount]

/-- A clause denotes the window that it is written for, on every list that is no longer than
64 bits can count, and no two requests have one clause but MySQL's for all rows and for as many
as there can be. -/
theorem limitClause_window (dialect : Dialect) (limit offset : Option Nat) :
    ((∀ n ∈ limit, n ≤ dialect.largestCount) → (∀ m ∈ offset, m ≤ dialect.largestCount) →
      ∃ w, dialect.window? (dialect.limitClause limit offset) = some w ∧
        ∀ {α : Type} (rows : List α), rows.length ≤ 2 ^ 64 - 1 →
          w.apply rows =
            match limit with
            | none => rows.drop (offset.getD 0)
            | some n => (rows.drop (offset.getD 0)).take n) ∧
    ∀ limit' offset',
      dialect.limitClause limit offset = dialect.limitClause limit' offset' ↔
        (limit = limit' ∧ offset = offset') ∨
          (dialect = mysql ∧ offset.isSome ∧ offset = offset' ∧
            ((limit = none ∧ limit' = some (2 ^ 64 - 1)) ∨
              (limit = some (2 ^ 64 - 1) ∧ limit' = none))) := by
  constructor
  · intro hlimit hoffset
    obtain ⟨bound, hread, hbound⟩ := window?_limitClause hlimit hoffset
    refine ⟨_, hread, fun rows hrows => ?_⟩
    cases hbound with
    | inl hsame =>
        rw [hsame]
        cases limit <;> rfl
    | inr hall =>
        obtain ⟨rfl, rfl⟩ := hall
        -- no list is longer than the number that stands for all rows
        have hlength : (rows.drop (offset.getD 0)).length ≤ mysqlAllRows := by
          rw [List.length_drop]
          exact Nat.le_trans (Nat.sub_le _ _) hrows
        exact List.take_of_length_le hlength
  · intro limit' offset'
    constructor
    · intro h
      have hwords := congrArg scan? h
      rw [scan?_limitClause, scan?_limitClause, Option.some.injEq] at hwords
      exact limitWords_inj hwords
    · intro h
      cases h with
      | inl hsame => rw [hsame.1, hsame.2]
      | inr hall =>
          obtain ⟨rfl, hsome, rfl, hlimits⟩ := hall
          obtain ⟨m, rfl⟩ := Option.isSome_iff_exists.mp hsome
          cases hlimits with
          | inl hfirst => rw [hfirst.1, hfirst.2]; rfl
          | inr hsecond => rw [hsecond.1, hsecond.2]; rfl

/-- All rows after the first three, which MySQL has to count, and the one row after them. -/
theorem limitClause_window_afterThree :
    (∃ w, mysql.window? "LIMIT 3, 18446744073709551615".toList = some w ∧
      w.apply ["a", "b", "c", "d", "e"] = ["d", "e"]) ∧
    ∃ w, mysql.window? "LIMIT 3, 1".toList = some w ∧
      w.apply ["a", "b", "c", "d", "e"] = ["d"] := by
  have hthree : ∀ m ∈ some 3, m ≤ mysql.largestCount := fun _ h => by cases h; decide
  constructor
  · obtain ⟨w, hread, hrows⟩ := (limitClause_window mysql none (some 3)).1
      (fun _ h => by cases h) hthree
    exact ⟨w, hread, hrows ["a", "b", "c", "d", "e"] (by decide)⟩
  · obtain ⟨w, hread, hrows⟩ := (limitClause_window mysql (some 1) (some 3)).1
      (fun _ h => by cases h; decide) hthree
    exact ⟨w, hread, hrows ["a", "b", "c", "d", "e"] (by decide)⟩

end Dialect

end RowShape
