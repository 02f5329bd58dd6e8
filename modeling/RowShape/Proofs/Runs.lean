import Mathlib.Data.List.Forall2
import RowShape.Rendering

/-!
What holds of every run of a computation, whatever the client answers. A client is
taken here at its most general: an answer may depend on all the calls before it. What is
known of the answers is known along the calls, each with those before it.
-/

namespace RowShape

namespace Fetching

variable {α β : Type}

/-- A sequence succeeds when both of its steps do. -/
theorem runAfter_bind_eq_ok {answers : Respondent} {past calls : List Call} {x : Fetching α}
    {f : α → Fetching β} {b : β} :
    (x >>= f).runAfter answers past = (.ok b, calls) ↔
      ∃ a first second, x.runAfter answers past = (.ok a, first) ∧
        (f a).runAfter answers (past ++ first) = (.ok b, second) ∧ calls = first ++ second := by
  cases hx : x.runAfter answers past with
  | mk outcome first =>
      cases outcome with
      | error e => simp [runAfter_bind_of_error hx]
      | ok a =>
          rw [runAfter_bind_of_ok hx]
          constructor
          · intro h
            obtain ⟨hb, hcalls⟩ := Prod.mk.inj h
            exact ⟨a, first, _, rfl, Prod.ext hb rfl, hcalls.symm⟩
          · rintro ⟨a', first', second, heq, hb, rfl⟩
            cases heq
            rw [hb]

theorem each_append (f : α → Fetching β) (first second : List α) :
    each f (first ++ second) = do
      let bs ← each f first
      let others ← each f second
      return bs ++ others := by
  induction first with
  | nil =>
      have hnil : each f [] = pure [] := rfl
      simp only [hnil, pure_bind, List.nil_append, bind_pure]
  | cons a rest ih =>
      simp only [List.cons_append, each, ih, LawfulMonad.bind_assoc, pure_bind]

/-- The same outcome and the same calls, whatever a client answers. -/
def SameRuns (x y : Fetching α) : Prop :=
  ∀ answers : Respondent, x.runAfter answers [] = y.runAfter answers []

/-- What holds of each of some calls, together with the calls before it. -/
def Along (P : List Call → Call → Prop) : List Call → List Call → Prop
  | _, [] => True
  | past, call :: rest => P past call ∧ Along P (past ++ [call]) rest

section
variable {P : List Call → Call → Prop}

theorem along_append {past first second : List Call} :
    Along P past (first ++ second) ↔ Along P past first ∧ Along P (past ++ first) second := by
  induction first generalizing past with
  | nil => rw [List.nil_append, List.append_nil, Along, true_and]
  | cons call rest ih =>
      rw [List.cons_append, Along, Along, ih, and_assoc, List.append_assoc, List.singleton_append]

theorem along_iff {past calls : List Call} :
    Along P past calls ↔
      ∀ before call after, calls = before ++ call :: after → P (past ++ before) call := by
  constructor
  · rintro h before call after rfl
    exact (along_append.mp h).2.1
  · intro h
    induction calls generalizing past with
    | nil => trivial
    | cons call rest ih =>
        refine ⟨?_, ih fun before c after heq => ?_⟩
        · simpa using h [] call rest rfl
        · simpa using h (call :: before) c after (by rw [heq, List.cons_append])

end

theorem along_forall {p : Call → Prop} {past calls : List Call} :
    Along (fun _ call => p call) past calls ↔ ∀ call ∈ calls, p call := by
  induction calls generalizing past with
  | nil => exact iff_of_true trivial (List.forall_mem_nil p)
  | cons call rest ih => rw [Along, ih, List.forall_mem_cons]

/-- The rows that a client gives for a call in a run with these calls. -/
def Answered (answers : Respondent) (calls : List Call) (call : Call) (rows : List Row) : Prop :=
  ∃ before, before ++ [call] <+: calls ∧ answers before call = .ok rows

/-- The ways in which a run may end: with a result, with an error of the computation's own, or
with the error that its last call was answered with. -/
inductive Ending (answers : Respondent) (past : List Call) (errors : Error → Prop)
    (result : α → Prop) : Except Error α → List Call → Prop where
  | result {a : α} {calls : List Call} (h : result a) :
      Ending answers past errors result (.ok a) calls
  | own {e : Error} {calls : List Call} (h : errors e) :
      Ending answers past errors result (.error e) calls
  | answer {e : Error} {before : List Call} {call : Call}
      (h : answers (past ++ before) call = .error e) :
      Ending answers past errors result (.error e) (before ++ [call])

/-- Every error of the computation's own satisfies `errors` and every result `result`, as
long as the rows that a client answers are among those that `answered` allows. -/
def Ends (answered : Call → List Row → Prop) (errors : Error → Prop) (result : α → Prop)
    (x : Fetching α) : Prop :=
  ∀ (answers : Respondent) (past : List Call) (outcome : Except Error α) (calls : List Call),
    x.runAfter answers past = (outcome, calls) →
    Along (fun before call => ∀ rows, answers before call = .ok rows → answered call rows)
      past calls →
    Ending answers past errors result outcome calls

section
variable {answered : Call → List Row → Prop} {errors : Error → Prop}

theorem ends_done {P : α → Prop} {a : α} (h : P a) : (done a).Ends answered errors P := by
  intro answers past outcome calls hrun _
  cases hrun
  exact .result h

theorem ends_fail {P : α → Prop} {e : Error} (h : errors e) :
    (fail e : Fetching α).Ends answered errors P := by
  intro answers past outcome calls hrun _
  cases hrun
  exact .own h

theorem ends_query (call : Call) : (query call).Ends answered errors (answered call) := by
  intro answers past outcome calls hrun hallowed
  obtain ⟨rfl, rfl⟩ := Prod.mk.inj hrun
  cases hanswer : answers past call with
  | ok rows => exact .result (hallowed.1 rows hanswer)
  | error e =>
      have hlast : answers (past ++ []) call = .error e := by rw [List.append_nil, hanswer]
      exact .answer hlast

theorem Ending.append {answers : Respondent} {past first calls : List Call} {P : α → Prop}
    {outcome : Except Error α} (h : Ending answers (past ++ first) errors P outcome calls) :
    Ending answers past errors P outcome (first ++ calls) := by
  cases h with
  | result h => exact .result h
  | own h => exact .own h
  | answer h =>
      rw [← List.append_assoc]
      rw [List.append_assoc] at h
      exact .answer h

theorem Ends.bind {P : α → Prop} {Q : β → Prop} {x : Fetching α} {f : α → Fetching β}
    (hx : x.Ends answered errors P) (hf : ∀ a, P a → (f a).Ends answered errors Q) :
    (x >>= f).Ends answered errors Q := by
  intro answers past outcome calls hrun hallowed
  cases hfirst : x.runAfter answers past with
  | mk made first =>
      cases made with
      | error e =>
          rw [runAfter_bind_of_error hfirst] at hrun
          cases hrun
          cases hx answers past _ _ hfirst hallowed with
          | own h => exact .own h
          | answer h => exact .answer h
      | ok a =>
          rw [runAfter_bind_of_ok hfirst] at hrun
          obtain ⟨rfl, rfl⟩ := Prod.mk.inj hrun
          obtain ⟨hbefore, hafter⟩ := along_append.mp hallowed
          cases hx answers past _ _ hfirst hbefore with
          | result ha => exact (hf a ha answers _ _ _ rfl hafter).append

theorem Ends.imp {P Q : α → Prop} {x : Fetching α} (hx : x.Ends answered errors P)
    (hresult : ∀ a, P a → Q a) : x.Ends answered errors Q := by
  intro answers past outcome calls hrun hallowed
  cases hx answers past outcome calls hrun hallowed with
  | result h => exact .result (hresult _ h)
  | own h => exact .own h
  | answer h => exact .answer h

theorem Ends.each {R : α → β → Prop} {f : α → Fetching β} {items : List α}
    (hf : ∀ a ∈ items, (f a).Ends answered errors (R a)) :
    (each f items).Ends answered errors (List.Forall₂ R items) := by
  induction items with
  | nil => exact ends_done .nil
  | cons a rest ih =>
      obtain ⟨hfirst, hrest⟩ := List.forall_mem_cons.mp hf
      exact hfirst.bind fun b hb => (ih hrest).bind fun bs hbs => ends_done (.cons hb hbs)

theorem ends_ofExcept {P : α → Prop} {x : Except Error α} (hok : ∀ a, x = .ok a → P a)
    (herror : ∀ e, x = .error e → errors e) : (ofExcept x).Ends answered errors P := by
  cases x with
  | ok a => exact ends_done (hok a rfl)
  | error e => exact ends_fail (herror e rfl)

end

/-- A run ends with a result or an error of the computation, under the answers given in this
run, or else with the error that its last call was answered with. -/
theorem Ends.outcome {errors : Error → Prop} {result : α → Prop} {answers : Respondent}
    {x : Fetching α} {outcome : Except Error α} {calls : List Call}
    (hx : x.Ends (Answered answers calls) errors result)
    (hrun : x.runAfter answers [] = (outcome, calls)) :
    (∀ a, outcome = .ok a → result a) ∧ ∀ e, outcome = .error e → errors e ∨
      ∃ before call, calls = before ++ [call] ∧ answers before call = .error e := by
  have hallowed : Along (fun before call => ∀ rows, answers before call = .ok rows →
      Answered answers calls call rows) [] calls := by
    rw [along_iff]
    intro before call after hcalls rows hrows
    refine ⟨before, ⟨after, ?_⟩, hrows⟩
    rw [hcalls, List.append_assoc, List.singleton_append]
  cases hx answers [] outcome calls hrun hallowed with
  | result h => exact ⟨fun a ha => by cases ha; exact h, nofun⟩
  | own h => exact ⟨nofun, fun e he => by cases he; exact .inl h⟩
  | answer h => exact ⟨nofun, fun e he => by cases he; exact .inr ⟨_, _, rfl, h⟩⟩

end Fetching

/-- A provider whose parameters are resolved fetches and assembles. -/
theorem Definition.render_provider {context : Option Context} {params : List Parameter}
    {bound : List Bound} (hbound : resolveAll context params = .ok bound) (shape : Provider)
    (source : Source) (each : Definition) :
    (Definition.provider shape source params each).render context =
      source.fetch bound >>= shape.assemble fun row => each.render (some (.ofRow row)) := by
  have hpure : Fetching.ofExcept (Except.ok bound) = pure bound := rfl
  rw [Definition.render, hbound, hpure, pure_bind]

/-- Once a source has given its data, a provider's run is that of its assembly. -/
theorem Definition.runAfter_provider {answers : Respondent} {past fetched : List Call}
    {context : Option Context} {source : Source} {params : List Parameter} {bound : List Bound}
    {data : Json} (hbound : resolveAll context params = .ok bound)
    (hdata : (source.fetch bound).runAfter answers past = (.ok data, fetched))
    (shape : Provider) (each : Definition) :
    ((Definition.provider shape source params each).render context).runAfter answers past =
      let run := (shape.assemble (fun row => each.render (some (.ofRow row))) data).runAfter answers
        (past ++ fetched)
      (run.1, fetched ++ run.2) := by
  rw [Definition.render_provider hbound]
  exact Fetching.runAfter_bind_of_ok hdata _

end RowShape
