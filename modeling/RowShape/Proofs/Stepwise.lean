import Mathlib.Data.Set.Defs
import RowShape.Proofs.Basic
import RowShape.Rendering

/-!
Rendering step by step. It is put together from queries and from steps without calls, one behind
the other. What holds of such steps and is kept by putting one behind the other holds of every
way in which a provider goes through its rows, and so of every definition.
-/

namespace RowShape

namespace Definition

/-- Every query of a definition, at any depth, is one of some texts. -/
inductive QueriesIn (texts : Set String) : Definition → Prop where
  | scalar (v : Json) : QueriesIn texts (.scalar v)
  | field (f : Field) : QueriesIn texts (.field f)
  | provider {shape : Provider} {source : Source} {params : List Parameter} {each : Definition}
      (hsource : ∀ sql, source = .query sql → sql ∈ texts) (heach : QueriesIn texts each) :
      QueriesIn texts (.provider shape source params each)
  | map {entries : List (String × Definition)} (h : ∀ e ∈ entries, QueriesIn texts e.2) :
      QueriesIn texts (.map entries)
  | row : QueriesIn texts .row

theorem QueriesIn.mono {few many : Set String} {d : Definition} (h : d.QueriesIn few)
    (hsub : few ⊆ many) : d.QueriesIn many := by
  induction h with
  | scalar v => exact .scalar v
  | field f => exact .field f
  | provider hsource _ ih => exact .provider (fun sql heq => hsub (hsource sql heq)) ih
  | map _ ih => exact .map ih
  | row => exact .row

theorem queriesIn_all (d : Definition) : d.QueriesIn {_text | True} := by
  induction d using Definition.induction with
  | scalar v => exact .scalar v
  | field f => exact .field f
  | provider shape source params each ih => exact .provider (fun _ _ => trivial) ih
  | map entries ih => exact .map ih
  | row => exact .row

end Definition

namespace Fetching

/-- A property of computations that those without calls have, and that a sequence has if its
parts do. -/
structure Stepwise (P : {α : Type} → Fetching α → Prop) : Prop where
  done {α : Type} (a : α) : P (done a)
  fail {α : Type} (e : Error) : P (fail e : Fetching α)
  bind {α β : Type} {x : Fetching α} {f : α → Fetching β} (hx : P x) (hf : ∀ a, P (f a)) :
    P (x >>= f)

end Fetching

open Fetching

namespace Fetching.Stepwise

variable {P : {α : Type} → Fetching α → Prop} (hP : Stepwise P)
include hP

theorem ofExcept {α : Type} (x : Except Error α) : P (ofExcept x) := by
  cases x with
  | ok a => exact hP.done a
  | error e => exact hP.fail e

theorem each {α β : Type} {f : α → Fetching β} (hf : ∀ a, P (f a)) (items : List α) :
    P (each f items) := by
  induction items with
  | nil => exact hP.done []
  | cons a rest ih => exact hP.bind (hf a) fun b => hP.bind ih fun bs => hP.done (b :: bs)

theorem fetch {source : Source} {params : List Bound}
    (hquery : ∀ sql, source = .query sql → P (query ⟨sql, params⟩)) :
    P (source.fetch params) := by
  cases source with
  | query sql => exact hP.bind (hquery sql rfl) fun rows => hP.done _
  | fixed v => exact hP.done v
  | callable run => exact hP.ofExcept (run params)

theorem row (kind : ProviderKind) (v : Json) : P (Provider.row kind v) := by
  cases v with
  | obj members => exact hP.done members
  | null | bool _ | num _ | str _ | arr _ => exact hP.fail _

theorem rows (kind : ProviderKind) (v : Json) : P (Provider.rows kind v) := by
  cases v with
  | arr items => exact hP.done items
  | null | bool _ | num _ | str _ | obj _ => exact hP.fail _

section
variable {renderRow : Row → Fetching Json} (hrow : ∀ r, P (renderRow r))
include hrow

theorem first (kind : ProviderKind) (items : List Json) :
    P (Provider.first renderRow kind items) := by
  cases items with
  | nil => exact hP.done _
  | cons v rest => exact hP.bind (hP.row kind v) hrow

theorem every (kind : ProviderKind) (items : List Json) :
    P (Provider.every renderRow kind items) :=
  hP.each (fun v => hP.bind (hP.row kind v) hrow) items

theorem everyKeyed (key : RowKey) (items : List Json) :
    P (Provider.everyKeyed renderRow key items) := by
  refine hP.each (fun v => ?_) items
  refine hP.bind (hP.row .collection v) fun r => hP.bind (hP.ofExcept (key.of r)) fun name => ?_
  exact hP.bind (hrow r) fun v => hP.done (name, v)

theorem collect (key : Option RowKey) (items : List Json) :
    P (Provider.collect renderRow key items) := by
  cases key with
  | none => exact hP.bind (hP.every hrow .collection items) fun _ => hP.done _
  | some key => exact hP.bind (hP.everyKeyed hrow key items) fun _ => hP.done _

theorem ofData (data : Json) (shape : Provider) : P (shape.ofData renderRow data) := by
  cases shape with
  | value =>
      cases data with
      | obj members => exact hrow members
      | arr items => exact hP.first hrow .value items
      | null | bool _ | num _ | str _ => exact hP.done _
  | entity =>
      cases data with
      | arr items => exact hP.first hrow .entity items
      | obj _ | null | bool _ | num _ | str _ => exact hP.bind (hP.row .entity _) hrow
  | column =>
      refine hP.bind (hP.rows .column data) fun items => ?_
      exact hP.bind (hP.every hrow .column items) fun _ => hP.done _
  | collection key filter =>
      refine hP.bind (hP.rows .collection data) fun items => ?_
      refine hP.bind (hP.collect hrow key items) fun collected => ?_
      cases filter with
      | none => exact hP.done _
      | some f => exact hP.bind (hP.ofExcept (f collected)) fun _ => hP.done _

theorem assemble (shape : Provider) (data : Json) : P (shape.assemble renderRow data) := by
  unfold Provider.assemble
  split
  · exact hP.done _
  · exact hP.ofData hrow data shape

end

theorem renderEntries {context : Option Context} {entries : List (String × Definition)}
    (h : ∀ e ∈ entries, P (e.2.render context)) :
    P (Definition.renderEntries context entries) := by
  induction entries with
  | nil => exact hP.done []
  | cons e rest ih =>
      obtain ⟨hfirst, hrest⟩ := List.forall_mem_cons.mp h
      exact hP.bind hfirst fun v => hP.bind (ih hrest) fun others => hP.done _

/-- What the queries of a definition have in this way, its rendering has. -/
theorem render {texts : Set String} (hquery : ∀ sql ∈ texts, ∀ params, P (query ⟨sql, params⟩))
    {d : Definition} (h : d.QueriesIn texts) (context : Option Context) :
    P (d.render context) := by
  induction h generalizing context with
  | scalar v =>
      cases v with
      | str name =>
          cases context with
          | none => exact hP.done _
          | some c =>
              simp only [Definition.render]
              split
              · exact hP.done _
              · exact hP.fail _
      | null | bool _ | num _ | arr _ | obj _ => exact hP.done _
  | field f => exact hP.ofExcept _
  | @provider shape source params each hsource _ ih =>
      refine hP.bind (hP.ofExcept (resolveAll context params)) fun bound => ?_
      refine hP.bind (hP.fetch fun sql heq => hquery sql (hsource sql heq) bound) fun data => ?_
      exact hP.assemble (fun r => ih (some (.ofRow r))) shape data
  | map _ ih =>
      refine hP.bind (hP.renderEntries fun e he => ih e he context) fun members => ?_
      exact hP.done _
  | row =>
      simp only [Definition.render]
      split <;> exact hP.done _

end Fetching.Stepwise

end RowShape
