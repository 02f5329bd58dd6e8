import RowShape.Parameter

/-!
Computations that ask a client for rows. A computation is told how the client answers and which
calls came before, and comes to an outcome by calls of its own. A query hands on its answer,
whether rows or an error; that an error ends what follows is the doing of `bind`.
-/

namespace RowShape

structure Call where
  sql : String
  params : List Bound

/-- Answers SQL text and bound parameters with rows or an error. -/
abbrev Client := Call → Except Error (List Row)

/-- A client that may answer the same call differently from time to time: it knows the calls
before. -/
abbrev Respondent := List Call → Client

@[ext]
structure Fetching (α : Type) where
  /-- The outcome and the calls that lead to it, when some calls came before them. -/
  runAfter : Respondent → List Call → Except Error α × List Call

namespace Fetching

variable {α β γ : Type}

def done (a : α) : Fetching α := ⟨fun _ _ => (.ok a, [])⟩

def fail (e : Error) : Fetching α := ⟨fun _ _ => (.error e, [])⟩

def query (call : Call) : Fetching (List Row) := ⟨fun answers past => (answers past call, [call])⟩

/-- Goes on with a result, behind the calls that led to it, and stops at an error. -/
def bind (x : Fetching α) (f : α → Fetching β) : Fetching β where
  runAfter answers past :=
    match x.runAfter answers past with
    | (.ok a, calls) =>
      let (outcome, more) := (f a).runAfter answers (past ++ calls)
      (outcome, calls ++ more)
    | (.error e, calls) => (.error e, calls)

instance : Monad Fetching where
  pure := done
  bind := bind

section Laws

variable {answers : Respondent} {past calls : List Call} {x : Fetching α}

theorem runAfter_pure (a : α) : (pure a : Fetching α).runAfter answers past = (.ok a, []) := rfl

theorem runAfter_bind_of_ok {a : α} (h : x.runAfter answers past = (.ok a, calls))
    (f : α → Fetching β) :
    (x >>= f).runAfter answers past =
      (((f a).runAfter answers (past ++ calls)).1,
        calls ++ ((f a).runAfter answers (past ++ calls)).2) := by
  change (x.bind f).runAfter answers past = _
  simp only [bind, h]

theorem runAfter_bind_of_error {e : Error} (h : x.runAfter answers past = (.error e, calls))
    (f : α → Fetching β) : (x >>= f).runAfter answers past = (.error e, calls) := by
  change (x.bind f).runAfter answers past = _
  simp only [bind, h]

theorem done_bind (a : α) (f : α → Fetching β) : (done a).bind f = f a := by
  apply Fetching.ext
  funext answers past
  simp only [bind, done, List.append_nil, List.nil_append]

theorem bind_done (x : Fetching α) : x.bind done = x := by
  apply Fetching.ext
  funext answers past
  cases h : x.runAfter answers past with
  | mk outcome calls => cases outcome <;> simp only [bind, done, h, List.append_nil]

theorem bind_assoc (x : Fetching α) (f : α → Fetching β) (g : β → Fetching γ) :
    (x.bind f).bind g = x.bind fun a => (f a).bind g := by
  apply Fetching.ext
  funext answers past
  cases hx : x.runAfter answers past with
  | mk outcome first =>
      cases outcome with
      | error e => simp only [bind, hx]
      | ok a =>
          cases hf : (f a).runAfter answers (past ++ first) with
          | mk outcome second =>
              cases outcome <;> simp only [bind, hx, hf, List.append_assoc]

instance : LawfulMonad Fetching := LawfulMonad.mk' Fetching bind_done done_bind bind_assoc

end Laws

def ofExcept : Except Error α → Fetching α
  | .ok a => done a
  | .error e => fail e

/-- The outcome of a run and its calls. -/
def run (client : Client) (x : Fetching α) : Except Error α × List Call :=
  x.runAfter (fun _ => client) []

/-- Handles the elements of a list from left to right. -/
def each (f : α → Fetching β) : List α → Fetching (List β)
  | [] => done []
  | a :: rest => do
    let b ← f a
    let bs ← each f rest
    return b :: bs

end Fetching

end RowShape
