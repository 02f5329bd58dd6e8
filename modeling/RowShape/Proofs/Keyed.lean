import RowShape.Proofs.Assembly
import RowShape.Proofs.Basic

/-!
Collections that are kept by a key. Their rows take turns in the order in which they were
fetched, the key of a row before its rendering, and the first error ends the whole. A row
replaces what an earlier one left under its key, in the place of the earlier one.
-/

namespace RowShape

/-- What one row of a collection renders as, and the calls that are made for it. -/
structure Turn where
  row : Row
  outcome : Except Error Json
  calls : List Call

namespace Turn

def Succeeds (key : RowKey) (t : Turn) : Prop :=
  (∃ name, key.of t.row = .ok name) ∧ ∃ v, t.outcome = .ok v

/-- The error of a turn and the calls before it. A row without a key is not rendered. -/
inductive Fails (key : RowKey) (t : Turn) : Error → List Call → Prop where
  | key {e : Error} (h : key.of t.row = .error e) : Fails key t e []
  | rendering {name : String} {e : Error} (hkey : key.of t.row = .ok name)
      (h : t.outcome = .error e) : Fails key t e t.calls

theorem Fails.not_succeeds {key : RowKey} {t : Turn} {e : Error} {calls : List Call}
    (h : t.Fails key e calls) : ¬ t.Succeeds key := by
  rintro ⟨⟨name, hname⟩, v, hv⟩
  cases h with
  | key hkey => rw [hname] at hkey; cases hkey
  | rendering _ hrow => rw [hv] at hrow; cases hrow

end Turn

/-- How the turns of a keyed collection end: with members, each the outcome of the last turn
under its name, or with the error of the first turn that fails. -/
inductive KeyedEnd (key : RowKey) (ts : List Turn) : Except Error Json → List Call → Prop where
  | members {named : List (String × Turn)} {members : Row} (hnamed : named.map (·.2) = ts)
      (hkeys : ∀ n ∈ named, key.of n.2.row = .ok n.1)
      (hmembers : IsRecord named (fun t v => t.outcome = .ok v) members)
      (hall : ∀ t ∈ ts, t.Succeeds key) :
      KeyedEnd key ts (.ok (.obj members)) (ts.flatMap (·.calls))
  | failure {before after : List Turn} {t : Turn} {e : Error} {calls : List Call}
      (hts : ts = before ++ t :: after) (hbefore : ∀ s ∈ before, s.Succeeds key)
      (ht : t.Fails key e calls) :
      KeyedEnd key ts (.error e) (before.flatMap (·.calls) ++ calls)

namespace KeyedEnd
variable {key : RowKey} {ts : List Turn} {outcome : Except Error Json} {calls : List Call}

theorem exists_ok_iff (h : KeyedEnd key ts outcome calls) :
    (∃ v, outcome = .ok v) ↔ ∀ t ∈ ts, t.Succeeds key := by
  cases h with
  | members _ _ _ hall => exact ⟨fun _ => hall, fun _ => ⟨_, rfl⟩⟩
  | @failure before after t _ _ hts _ ht =>
      constructor
      · rintro ⟨v, hv⟩
        cases hv
      · intro hall
        have hmem : t ∈ ts := by
          rw [hts]
          exact List.mem_append_right before List.mem_cons_self
        exact absurd (hall t hmem) ht.not_succeeds

theorem exists_members (h : KeyedEnd key ts outcome calls) {v : Json} (hv : outcome = .ok v) :
    ∃ (named : List (String × Turn)) (members : Row), v = .obj members ∧ named.map (·.2) = ts ∧
      (∀ n ∈ named, key.of n.2.row = .ok n.1) ∧
      IsRecord named (fun t w => t.outcome = .ok w) members ∧ calls = ts.flatMap (·.calls) := by
  cases h with
  | members hnamed hkeys hmembers =>
      cases hv
      exact ⟨_, _, rfl, hnamed, hkeys, hmembers, rfl⟩
  | failure => cases hv

theorem exists_failure (h : KeyedEnd key ts outcome calls) {e : Error} (he : outcome = .error e) :
    ∃ before t after failed, ts = before ++ t :: after ∧ (∀ s ∈ before, s.Succeeds key) ∧
      t.Fails key e failed ∧ calls = before.flatMap (·.calls) ++ failed := by
  cases h with
  | members => cases he
  | failure hts hbefore ht =>
      cases he
      exact ⟨_, _, _, _, hts, hbefore, ht, rfl⟩

end KeyedEnd

open Fetching

/-- The turns of rows, each after the calls of those before it. -/
def turns (answers : Respondent) (renderRow : Row → Fetching Json) :
    List Call → List Row → List Turn
  | _, [] => []
  | past, row :: rest =>
    let (outcome, calls) := (renderRow row).runAfter answers past
    ⟨row, outcome, calls⟩ :: turns answers renderRow (past ++ calls) rest

section
variable {answers : Respondent} {renderRow : Row → Fetching Json} {key : RowKey}

theorem map_row_turns (past : List Call) (rows : List Row) :
    (turns answers renderRow past rows).map (·.row) = rows := by
  induction rows generalizing past with
  | nil => rfl
  | cons row rest ih => rw [turns, List.map_cons, ih]

theorem everyKeyed_cons (row : Row) (rest : List Json) :
    Provider.everyKeyed renderRow key (.obj row :: rest) = do
      let name ← ofExcept (key.of row)
      let v ← renderRow row
      let others ← Provider.everyKeyed renderRow key rest
      return (name, v) :: others := by
  simp only [Provider.everyKeyed, each, Provider.row_obj, LawfulMonad.bind_assoc, pure_bind]

variable (answers renderRow key) in
/-- Either all turns succeed, each giving a member, or the first that does not ends the run. -/
theorem runAfter_everyKeyed (past : List Call) (rows : List Row) :
    (∃ named, List.Forall₂ (fun t m => key.of t.row = .ok m.1 ∧ t.outcome = .ok m.2)
        (turns answers renderRow past rows) named ∧
      (Provider.everyKeyed renderRow key (rows.map .obj)).runAfter answers past =
        (.ok named, (turns answers renderRow past rows).flatMap (·.calls))) ∨
    ∃ before t after e calls, turns answers renderRow past rows = before ++ t :: after ∧
      (∀ s ∈ before, s.Succeeds key) ∧ t.Fails key e calls ∧
      (Provider.everyKeyed renderRow key (rows.map .obj)).runAfter answers past =
        (.error e, before.flatMap (·.calls) ++ calls) := by
  -- The calls of the first turn are part of the past of all others.
  induction rows generalizing past with
  | nil => exact .inl ⟨[], .nil, rfl⟩
  | cons row rest ih =>
      rw [List.map_cons, everyKeyed_cons]
      cases hkey : key.of row with
      | error e =>
          exact .inr ⟨[], _, _, e, [], rfl, fun _ h => absurd h List.not_mem_nil, .key hkey, rfl⟩
      | ok name =>
          have hname : ofExcept (Except.ok name) = pure name := rfl
          rw [hname, pure_bind, turns]
          cases hrow : (renderRow row).runAfter answers past with
          | mk outcome calls =>
              cases outcome with
              | error e =>
                  rw [runAfter_bind_of_error hrow]
                  exact .inr ⟨[], _, _, e, calls, rfl, fun _ h => absurd h List.not_mem_nil,
                    .rendering hkey rfl, rfl⟩
              | ok v =>
                  rw [runAfter_bind_of_ok hrow]
                  rcases ih (past ++ calls) with ⟨named, hnamed, hrun⟩ | hfails
                  · left
                    refine ⟨(name, v) :: named, .cons ⟨hkey, rfl⟩ hnamed, ?_⟩
                    rw [runAfter_bind_of_ok hrun]
                    simp only [runAfter_pure, List.append_nil, List.flatMap_cons]
                  · obtain ⟨before, t, after, e, failed, hturns, hbefore, ht, hrun⟩ := hfails
                    right
                    refine ⟨_ :: before, t, after, e, failed, congrArg _ hturns, ?_, ht, ?_⟩
                    · exact List.forall_mem_cons.mpr ⟨⟨⟨name, hkey⟩, v, rfl⟩, hbefore⟩
                    · rw [runAfter_bind_of_error hrun, List.flatMap_cons, List.append_assoc]

theorem assemble_keyed (rows : List Row) :
    (Provider.collection (some key) none).assemble renderRow (.arr (rows.map .obj)) = do
      let named ← Provider.everyKeyed renderRow key (rows.map .obj)
      return .obj (Row.ofList named) := by
  cases rows with
  | nil => rfl
  | cons row rest =>
      have hdata : Json.carriesNothing (.arr ((row :: rest).map .obj)) = false := rfl
      simp only [Provider.assemble, hdata, Bool.false_eq_true, ↓reduceIte, Provider.ofData,
        Provider.rows_arr, Provider.collect, LawfulMonad.bind_assoc, pure_bind, Collected.toJson]

theorem runAfter_assemble_keyed_eq_ok {past calls : List Call} {rows : List Row} {v : Json} :
    ((Provider.collection (some key) none).assemble renderRow (.arr (rows.map .obj))).runAfter
        answers past = (.ok v, calls) ↔
      ∃ named, (Provider.everyKeyed renderRow key (rows.map .obj)).runAfter answers past =
        (.ok named, calls) ∧ v = .obj (Row.ofList named) := by
  rw [assemble_keyed, runAfter_bind_eq_ok]
  constructor
  · rintro ⟨named, first, second, hnamed, hv, rfl⟩
    cases hv
    rw [List.append_nil]
    exact ⟨named, hnamed, rfl⟩
  · rintro ⟨named, hnamed, rfl⟩
    exact ⟨named, calls, [], hnamed, rfl, (List.append_nil calls).symm⟩

variable (answers renderRow key) in
theorem keyedEnd_assemble (past : List Call) (rows : List Row) :
    let run := ((Provider.collection (some key) none).assemble renderRow
      (.arr (rows.map .obj))).runAfter answers past
    KeyedEnd key (turns answers renderRow past rows) run.1 run.2 := by
  intro run
  rcases runAfter_everyKeyed answers renderRow key past rows with
    ⟨members, hmembers, hrun⟩ | ⟨before, t, after, e, calls, hts, hbefore, ht, hrun⟩
  · obtain ⟨named, hnamed, hkeys, hvalues⟩ :=
      Provider.exists_keyed (K := fun (t : Turn) name => key.of t.row = .ok name)
        (P := fun t v => t.outcome = .ok v) hmembers
    have hall : ∀ t ∈ turns answers renderRow past rows, t.Succeeds key := by
      intro t ht
      obtain ⟨m, hkey, hv⟩ := exists_forall₂.mp ⟨members, hmembers⟩ t ht
      exact ⟨⟨m.1, hkey⟩, m.2, hv⟩
    have heq : run = _ := runAfter_assemble_keyed_eq_ok.mpr ⟨members, hrun, rfl⟩
    rw [heq]
    exact .members hnamed.symm hkeys (.ofList hvalues) hall
  · have heq : run = (.error e, before.flatMap (·.calls) ++ calls) := by
      change (Provider.assemble _ _ _).runAfter answers past = _
      rw [assemble_keyed, runAfter_bind_of_error hrun]
    rw [heq]
    exact .failure hts hbefore ht

/-- Rows in two parts give what the first part gives, updated by what the second gives. -/
theorem runAfter_assemble_keyed_append {past calls : List Call} {xs ys : List Row} {v : Json} :
    ((Provider.collection (some key) none).assemble renderRow (.arr ((xs ++ ys).map .obj))).runAfter
        answers past = (.ok v, calls) ↔
      ∃ (m n : Row) (first second : List Call),
        ((Provider.collection (some key) none).assemble renderRow (.arr (xs.map .obj))).runAfter
          answers past = (.ok (.obj m), first) ∧
        ((Provider.collection (some key) none).assemble renderRow (.arr (ys.map .obj))).runAfter
          answers (past ++ first) = (.ok (.obj n), second) ∧
        v = .obj (m.update n) ∧ calls = first ++ second := by
  have happend : Provider.everyKeyed renderRow key ((xs ++ ys).map .obj) = do
      let named ← Provider.everyKeyed renderRow key (xs.map .obj)
      let others ← Provider.everyKeyed renderRow key (ys.map .obj)
      return named ++ others := by
    rw [List.map_append, Provider.everyKeyed, each_append]
    rfl
  simp only [runAfter_assemble_keyed_eq_ok, happend, runAfter_bind_eq_ok]
  constructor
  · rintro ⟨_, ⟨named, first, _, hxs, ⟨others, second, _, hys, hdone, rfl⟩, rfl⟩, rfl⟩
    cases hdone
    rw [List.append_nil]
    exact ⟨_, _, first, second, ⟨named, hxs, rfl⟩, ⟨others, hys, rfl⟩,
      by rw [Row.ofList_append], rfl⟩
  · rintro ⟨m, n, first, second, ⟨named, hxs, hm⟩, ⟨others, hys, hn⟩, rfl, rfl⟩
    cases hm
    cases hn
    refine ⟨named ++ others, ⟨named, first, second, hxs, ?_, rfl⟩, by rw [Row.ofList_append]⟩
    exact ⟨others, second, [], hys, rfl, (List.append_nil second).symm⟩

end

namespace Definition

/-- A keyed collection over rows at hand. -/
def keyedRows (key : RowKey) (each : Definition) (rows : List Row) : Definition :=
  .provider (.collection (some key) none) (.fixed (.arr (rows.map .obj))) [] each

theorem render_keyedRows (key : RowKey) (each : Definition) (rows : List Row) :
    (keyedRows key each rows).render none = (Provider.collection (some key) none).assemble
      (fun row => each.render (some (.ofRow row))) (.arr (rows.map .obj)) := by
  have hbound : ofExcept (resolveAll none []) = pure [] := rfl
  have hdata (data : Json) : (Source.fixed data).fetch [] = pure data := rfl
  rw [keyedRows, render, hbound, pure_bind, hdata, pure_bind]

/-- A keyed collection without a filter renders when all its rows have a key and render. It
then holds the keys in the order of their first rows, each with what its last row renders as,
and otherwise fails as the first row that does. All rows up to there are rendered, once each
and in order. Rows may be added to a collection by updating it. -/
theorem render_keyed {answers : Respondent} {past fetched : List Call} {context : Option Context}
    {source : Source} {params : List Parameter} {bound : List Bound} {rows : List Row}
    (hbound : resolveAll context params = .ok bound)
    (hrows : (source.fetch bound).runAfter answers past = (.ok (.arr (rows.map .obj)), fetched))
    (key : RowKey) (each : Definition) :
    let run := ((provider (.collection (some key) none) source params each).render context).runAfter
      answers past
    let ts := turns answers (fun row => each.render (some (.ofRow row))) (past ++ fetched) rows
    ts.map (·.row) = rows ∧
    ((∃ v, run.1 = .ok v) ↔ ∀ t ∈ ts, t.Succeeds key) ∧
    (∀ v, run.1 = .ok v → ∃ (named : List (String × Turn)) (members : Row),
      v = .obj members ∧ named.map (·.2) = ts ∧ (∀ n ∈ named, key.of n.2.row = .ok n.1) ∧
      IsRecord named (fun t w => t.outcome = .ok w) members ∧
      run.2 = fetched ++ ts.flatMap (·.calls)) ∧
    (∀ e, run.1 = .error e → ∃ before t after calls, ts = before ++ t :: after ∧
      (∀ s ∈ before, s.Succeeds key) ∧ t.Fails key e calls ∧
      run.2 = fetched ++ (before.flatMap (·.calls) ++ calls)) ∧
    ∀ xs ys, rows = xs ++ ys → ∀ v calls, run = (.ok v, calls) ↔
      ∃ (m n : Row) (first second : List Call),
        ((keyedRows key each xs).render none).runAfter answers (past ++ fetched) =
          (.ok (.obj m), first) ∧
        ((keyedRows key each ys).render none).runAfter answers (past ++ fetched ++ first) =
          (.ok (.obj n), second) ∧
        v = .obj (m.update n) ∧ calls = fetched ++ (first ++ second) := by
  intro run ts
  have hrun : run = _ := runAfter_provider hbound hrows (.collection (some key) none) each
  have hend := keyedEnd_assemble answers (fun row => each.render (some (.ofRow row))) key
    (past ++ fetched) rows
  rw [hrun]
  refine ⟨map_row_turns _ rows, hend.exists_ok_iff, ?_, ?_, ?_⟩
  · intro v hv
    obtain ⟨named, members, heq, hnamed, hkeys, hmembers, hcalls⟩ := hend.exists_members hv
    exact ⟨named, members, heq, hnamed, hkeys, hmembers, congrArg (fetched ++ ·) hcalls⟩
  · intro e he
    obtain ⟨before, t, after, failed, hts, hbefore, ht, hcalls⟩ := hend.exists_failure he
    exact ⟨before, t, after, failed, hts, hbefore, ht, congrArg (fetched ++ ·) hcalls⟩
  · rintro xs ys rfl v calls
    simp only [render_keyedRows]
    constructor
    · intro h
      obtain ⟨hv, hcalls⟩ := Prod.mk.inj h
      obtain ⟨m, n, first, second, hxs, hys, heq, hboth⟩ :=
        runAfter_assemble_keyed_append.mp (Prod.ext hv rfl)
      exact ⟨m, n, first, second, hxs, hys, heq, by rw [← hcalls, ← hboth]⟩
    · rintro ⟨m, n, first, second, hxs, hys, rfl, rfl⟩
      rw [runAfter_assemble_keyed_append.mpr ⟨m, n, first, second, hxs, hys, rfl, rfl⟩]

/-- The body of a piece of news. -/
def newsBody : Definition :=
  .provider .value (.query "SELECT body FROM news WHERE id = ?") [⟨none, .reference "id"⟩]
    (.scalar (.str "body"))

/-- Two pieces of news about a fire, with one about a flood between them. -/
def threeNews : List Row :=
  [[("tag", .str "fire"), ("id", .int 1)], [("tag", .str "flood"), ("id", .int 2)],
    [("tag", .str "fire"), ("id", .int 3)]]

/-- Gives three pieces of news, whose bodies are the numbers of calls made before. -/
def threeBodies : Respondent := fun past call =>
  if call.sql = "SELECT tag, id FROM news" then .ok threeNews
  else .ok [[("body", .int past.length)]]

theorem render_keyed_newsBody :
    let list : Call := ⟨"SELECT tag, id FROM news", []⟩
    let body (id : Int) : Call := ⟨"SELECT body FROM news WHERE id = ?", [⟨none, .int id⟩]⟩
    let newsByTag : Definition := .provider (.collection (some (.column "tag")) none)
      (.query "SELECT tag, id FROM news") [] newsBody
    resolveAll none [] = .ok [] ∧
    ((Source.query "SELECT tag, id FROM news").fetch []).runAfter threeBodies [] =
      (.ok (.arr (threeNews.map .obj)), [list]) ∧
    (newsByTag.render none).runAfter threeBodies [] =
      (.ok (.obj [("fire", .int 3), ("flood", .int 2)]), [list, body 1, body 2, body 3]) ∧
    ∀ t ∈ turns threeBodies (fun row => newsBody.render (some (.ofRow row))) [list] threeNews,
      t.Succeeds (.column "tag") := by
  intro list body newsByTag
  have hrows : ((Source.query "SELECT tag, id FROM news").fetch []).runAfter threeBodies [] =
      (.ok (.arr (threeNews.map .obj)), [list]) := rfl
  have hrun : (newsByTag.render none).runAfter threeBodies [] =
      (.ok (.obj [("fire", .int 3), ("flood", .int 2)]), [list, body 1, body 2, body 3]) := rfl
  have hbound : resolveAll none [] = .ok [] := rfl
  have hkeyed := render_keyed hbound hrows (.column "tag") newsBody
  exact ⟨hbound, hrows, hrun, hkeyed.2.1.mp ⟨_, congrArg Prod.fst hrun⟩⟩

end Definition

end RowShape
