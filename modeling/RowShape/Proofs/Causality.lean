import RowShape.Proofs.Runs
import RowShape.Proofs.Stepwise

/-!
How rendering and its client talk to each other. A computation could ask on after a failure,
turn an error into a result, or let answers decide that it does not own up to. Rendering does
none of this: its queries do not, and one step behind another does not if neither of them does.
-/

namespace RowShape

namespace Fetching

variable {α β : Type}

/-- The calls of the first step are the first calls of a sequence. -/
theorem exists_calls_bind (answers : Respondent) (past : List Call) (x : Fetching α)
    (f : α → Fetching β) :
    ∃ more, ((x >>= f).runAfter answers past).2 = (x.runAfter answers past).2 ++ more := by
  cases hx : x.runAfter answers past with
  | mk outcome calls =>
      cases outcome with
      | error e => exact ⟨[], by rw [runAfter_bind_of_error hx, List.append_nil]⟩
      | ok a => exact ⟨_, by rw [runAfter_bind_of_ok hx]⟩

/-- Two clients are asked the same until they answer a call differently. If they answer all
calls alike, the runs are the same. -/
def Causal (x : Fetching α) : Prop :=
  ∀ (A B : Respondent) (past : List Call),
    (Along (fun before call => A before call = B before call) past (x.runAfter A past).2 ∧
      x.runAfter A past = x.runAfter B past) ∨
    ∃ before call restA restB,
      (x.runAfter A past).2 = before ++ call :: restA ∧
      (x.runAfter B past).2 = before ++ call :: restB ∧
      Along (fun before call => A before call = B before call) past before ∧
      A (past ++ before) call ≠ B (past ++ before) call

/-- A call that is answered with an error is the last one, and the error is the outcome. -/
def FailStop (x : Fetching α) : Prop :=
  ∀ (answers : Respondent) (past before after : List Call) (call : Call) (e : Error),
    (x.runAfter answers past).2 = before ++ call :: after →
    answers (past ++ before) call = .error e →
    after = [] ∧ (x.runAfter answers past).1 = .error e

/-- A computation that does not own up to a call is not causal. -/
theorem not_causal_hidden (call : Call) :
    ¬ (⟨fun answers past => (answers past call, [])⟩ : Fetching (List Row)).Causal := by
  intro h
  rcases h (fun _ _ => .ok []) (fun _ _ => .ok [[]]) [] with ⟨_, hsame⟩ | ⟨before, _, _, _, hA, _⟩
  · cases hsame
  · cases before <;> cases hA

/-- One that has a result of its own for a failed call does not stop at it. -/
theorem not_failStop_swallowed (call : Call) (a : α) :
    ¬ (⟨fun _ _ => (.ok a, [call])⟩ : Fetching α).FailStop := by
  intro h
  have hstop := h (fun _ _ => .error .json) [] [] [] call .json rfl rfl
  cases hstop.2

theorem Causal.bind {x : Fetching α} {f : α → Fetching β} (hx : x.Causal)
    (hf : ∀ a, (f a).Causal) : (x >>= f).Causal := by
  intro A B past
  rcases hx A B past with ⟨hagree, hsame⟩ | ⟨before, call, restA, restB, hA, hB, hbefore, hcall⟩
  · cases hrunA : x.runAfter A past with
    | mk outcome first =>
        have hrunB : x.runAfter B past = (outcome, first) := hsame ▸ hrunA
        rw [hrunA] at hagree
        cases outcome with
        | error e =>
            rw [runAfter_bind_of_error hrunA, runAfter_bind_of_error hrunB]
            exact .inl ⟨hagree, rfl⟩
        | ok a =>
            rw [runAfter_bind_of_ok hrunA, runAfter_bind_of_ok hrunB]
            rcases hf a A B (past ++ first) with
              ⟨hlater, heq⟩ | ⟨before, call, restA, restB, hA, hB, hbefore, hcall⟩
            · exact .inl ⟨along_append.mpr ⟨hagree, hlater⟩, by rw [heq]⟩
            · refine .inr ⟨first ++ before, call, restA, restB, ?_, ?_, ?_, ?_⟩
              · rw [hA, List.append_assoc]
              · rw [hB, List.append_assoc]
              · exact along_append.mpr ⟨hagree, hbefore⟩
              · rwa [← List.append_assoc]
  · obtain ⟨moreA, hmoreA⟩ := exists_calls_bind A past x f
    obtain ⟨moreB, hmoreB⟩ := exists_calls_bind B past x f
    refine .inr ⟨before, call, restA ++ moreA, restB ++ moreB, ?_, ?_, hbefore, hcall⟩
    · rw [hmoreA, hA, List.append_assoc, List.cons_append]
    · rw [hmoreB, hB, List.append_assoc, List.cons_append]

theorem FailStop.bind {x : Fetching α} {f : α → Fetching β} (hx : x.FailStop)
    (hf : ∀ a, (f a).FailStop) : (x >>= f).FailStop := by
  intro answers past before after call e hcalls hfail
  cases hrun : x.runAfter answers past with
  | mk outcome first =>
      have hstop := hx answers past before
      rw [hrun] at hstop
      cases outcome with
      | error e' =>
          rw [runAfter_bind_of_error hrun] at hcalls ⊢
          obtain ⟨hlast, he⟩ := hstop after call e hcalls hfail
          exact ⟨hlast, congrArg Except.error (Except.error.inj he)⟩
      | ok a =>
          rw [runAfter_bind_of_ok hrun] at hcalls ⊢
          have hnext := hf a answers (past ++ first)
          rcases List.append_eq_append_iff.mp hcalls with ⟨mid, rfl, hsecond⟩ | ⟨mid, rfl, hcall⟩
          · rw [← List.append_assoc] at hfail
            exact hnext mid after call e hsecond hfail
          · cases mid with
            | nil =>
                have hpast : answers (past ++ (before ++ []) ++ []) call = .error e := by
                  rw [List.append_nil, List.append_nil, hfail]
                exact hnext [] after call e hcall.symm hpast
            | cons c mid =>
                -- the failed call would be one of the first step, which has a result
                obtain ⟨rfl, _⟩ := List.cons.inj hcall
                exact absurd (hstop mid call e rfl hfail).2 nofun

theorem causal_stepwise : Stepwise Causal where
  done _ _ _ _ := .inl ⟨trivial, rfl⟩
  fail _ _ _ _ := .inl ⟨trivial, rfl⟩
  bind := Causal.bind

theorem failStop_stepwise : Stepwise FailStop where
  done _ _ _ _ _ _ _ hcalls _ := by simp [done] at hcalls
  fail _ _ _ _ _ _ _ hcalls _ := by simp [fail] at hcalls
  bind := FailStop.bind

theorem causal_query (call : Call) : (query call).Causal := by
  intro A B past
  by_cases hsame : A past call = B past call
  · exact .inl ⟨⟨hsame, trivial⟩, congrArg (·, [call]) hsame⟩
  · refine .inr ⟨[], call, [], [], rfl, rfl, trivial, ?_⟩
    rwa [List.append_nil]

theorem failStop_query (call : Call) : (query call).FailStop := by
  intro answers past before after failed e hcalls hfail
  cases before with
  | nil =>
      obtain ⟨rfl, rfl⟩ := List.cons.inj hcalls
      rw [List.append_nil] at hfail
      exact ⟨rfl, hfail⟩
  | cons first rest => simp [query] at hcalls

end Fetching

theorem Definition.causal_render (d : Definition) (context : Option Context) :
    (d.render context).Causal :=
  Fetching.causal_stepwise.render (fun _ _ _ => Fetching.causal_query _) d.queriesIn_all context

theorem Definition.failStop_render (d : Definition) (context : Option Context) :
    (d.render context).FailStop :=
  Fetching.failStop_stepwise.render (fun _ _ _ => Fetching.failStop_query _) d.queriesIn_all context

theorem Argument.resolve_reference_of_none {context : Option Context} {key : String}
    (h : Context.lookup? context key = none) :
    (Argument.reference key).resolve context = .error (.reference key) := by
  simp only [resolve, h]

/-- Parameters are resolved from left to right, so the first missing reference decides. -/
theorem resolveAll_of_missing {context : Option Context} {before after : List Parameter}
    {name : Option String} {key : String}
    (hbefore : ∀ p ∈ before, ∀ k, p.value = .reference k →
      (Context.lookup? context k).isSome = true)
    (hkey : Context.lookup? context key = none) :
    resolveAll context (before ++ ⟨name, .reference key⟩ :: after) = .error (.reference key) := by
  induction before with
  | nil =>
      simp only [List.nil_append, resolveAll, Argument.resolve_reference_of_none hkey]
      rfl
  | cons p rest ih =>
      obtain ⟨hp, hrest⟩ := List.forall_mem_cons.mp hbefore
      obtain ⟨v, hv⟩ : ∃ v, p.value.resolve context = .ok v := by
        cases hvalue : p.value with
        | literal v => exact ⟨v, rfl⟩
        | reference k =>
            obtain ⟨v, hv⟩ := Option.isSome_iff_exists.mp (hp k hvalue)
            exact ⟨v, by simp only [Argument.resolve, hv]⟩
      simp only [List.cons_append, resolveAll, hv, ih hrest]
      rfl

theorem exists_first_missing {context : Option Context} {params : List Parameter}
    (h : ∃ p ∈ params, ∃ key, p.value = .reference key ∧ Context.lookup? context key = none) :
    ∃ before name key after, params = before ++ ⟨name, .reference key⟩ :: after ∧
      (∀ p ∈ before, ∀ k, p.value = .reference k →
        (Context.lookup? context k).isSome = true) ∧
      Context.lookup? context key = none := by
  induction params with
  | nil => obtain ⟨p, hp, _⟩ := h; exact absurd hp List.not_mem_nil
  | cons p rest ih =>
      by_cases hp : ∃ key, p.value = .reference key ∧ Context.lookup? context key = none
      · obtain ⟨key, hvalue, hkey⟩ := hp
        refine ⟨[], p.name, key, rest, ?_, fun _ hq => absurd hq List.not_mem_nil, hkey⟩
        rw [List.nil_append, ← hvalue]
      · obtain ⟨q, hq, hmissing⟩ := h
        have hrest : ∃ q ∈ rest, ∃ key, q.value = .reference key ∧
            Context.lookup? context key = none := by
          rcases List.mem_cons.mp hq with rfl | hq
          · exact absurd hmissing hp
          · exact ⟨q, hq, hmissing⟩
        obtain ⟨before, name, key, after, rfl, hbefore, hkey⟩ := ih hrest
        refine ⟨p :: before, name, key, after, rfl, List.forall_mem_cons.mpr ⟨?_, hbefore⟩, hkey⟩
        intro k hvalue
        cases hlookup : Context.lookup? context k with
        | none => exact absurd ⟨k, hvalue, hlookup⟩ hp
        | some v => rfl

/-- Two clients are asked the same until one answer differs, a failed call ends the whole
with its error, and a provider with a missing reference asks nothing. -/
theorem render_causal (d : Definition) (context : Option Context) :
    (∀ A B : Client,
      ((∀ call ∈ ((d.render context).run A).2, A call = B call) ∧
        (d.render context).run A = (d.render context).run B) ∨
      ∃ before call restA restB,
        ((d.render context).run A).2 = before ++ call :: restA ∧
        ((d.render context).run B).2 = before ++ call :: restB ∧
        (∀ c ∈ before, A c = B c) ∧ A call ≠ B call) ∧
    (∀ (client : Client) (before after : List Call) (call : Call) (e : Error),
      ((d.render context).run client).2 = before ++ call :: after →
      client call = .error e →
      after = [] ∧ ((d.render context).run client).1 = .error e) ∧
    ∀ (shape : Provider) (source : Source) (params : List Parameter) (each : Definition),
      (∃ p ∈ params, ∃ key, p.value = .reference key ∧
        context.bind (·.lookup key) = none) →
      ∃ before name key after, params = before ++ ⟨name, .reference key⟩ :: after ∧
        (∀ p ∈ before, ∀ k, p.value = .reference k →
          (context.bind (·.lookup k)).isSome = true) ∧
        context.bind (·.lookup key) = none ∧
        ∀ client : Client, ((Definition.provider shape source params each).render context).run
          client = (.error (.reference key), []) := by
  refine ⟨fun A B => ?_, fun client before after call e => ?_, ?_⟩
  · have hcausal := d.causal_render context (fun _ => A) (fun _ => B) []
    simp only [Fetching.along_forall] at hcausal
    exact hcausal
  · exact d.failStop_render context (fun _ => client) [] before after call e
  · intro shape source params each hmissing
    obtain ⟨before, name, key, after, hparams, hbefore, hkey⟩ := exists_first_missing hmissing
    refine ⟨before, name, key, after, hparams, hbefore, hkey, fun client => ?_⟩
    rw [Definition.render, hparams, resolveAll_of_missing hbefore hkey]
    rfl

/-- The name of the author that a row refers to. -/
def authorName : Definition :=
  .provider .value (.query "SELECT name FROM author WHERE id = ?")
    [⟨none, .reference "authorId"⟩] .row

/-- Knows one row of news, and no author. -/
def newsWithoutAuthors : Client := fun call =>
  if call.sql = "SELECT authorId FROM news" then .ok [[("authorId", .int 7)]]
  else .error (.fetch "no such table: author")

theorem render_causal_news :
    let news : Definition := .provider .column (.query "SELECT authorId FROM news") [] authorName
    let failed : Call := ⟨"SELECT name FROM author WHERE id = ?", [⟨none, .int 7⟩]⟩
    ((news.render none).run newsWithoutAuthors).2
        = [⟨"SELECT authorId FROM news", []⟩] ++ failed :: [] ∧
      newsWithoutAuthors failed = .error (.fetch "no such table: author") ∧
      ((news.render none).run newsWithoutAuthors).1
        = .error (.fetch "no such table: author") ∧
      (authorName.render none).run newsWithoutAuthors = (.error (.reference "authorId"), []) := by
  intro news failed
  have hcalls : ((news.render none).run newsWithoutAuthors).2
      = [⟨"SELECT authorId FROM news", []⟩] ++ failed :: [] := rfl
  have hfail : newsWithoutAuthors failed = .error (.fetch "no such table: author") := rfl
  refine ⟨hcalls, hfail, ((render_causal news none).2.1 _ _ _ _ _ hcalls hfail).2, ?_⟩
  obtain ⟨before, name, key, after, hparams, _, _, hrun⟩ :=
    (render_causal authorName none).2.2 .value (.query "SELECT name FROM author WHERE id = ?")
      [⟨none, .reference "authorId"⟩] .row ⟨_, List.mem_singleton_self _, "authorId", rfl, rfl⟩
  cases before with
  | nil =>
      cases hparams
      exact hrun newsWithoutAuthors
  | cons p rest => simp at hparams

end RowShape
