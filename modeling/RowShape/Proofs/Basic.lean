import Mathlib.Data.List.Forall2
import RowShape.Definition

/-!
Induction over values and definitions, whose nodes hold lists of their own kind,
lists related item by item, and inversion of computations that may fail.
-/

namespace RowShape

/-- An array or an object may assume the claim of each of its parts. -/
@[elab_as_elim]
theorem Json.induction {motive : Json → Prop} (null : motive .null)
    (bool : ∀ b, motive (.bool b)) (num : ∀ n, motive (.num n))
    (str : ∀ s, motive (.str s))
    (arr : ∀ items, (∀ v ∈ items, motive v) → motive (.arr items))
    (obj : ∀ members, (∀ m ∈ members, motive m.2) → motive (.obj members))
    (v : Json) : motive v :=
  @Json.rec motive (fun items => ∀ v ∈ items, motive v)
    (fun members => ∀ m ∈ members, motive m.2) (fun m => motive m.2)
    null bool num str arr obj
    (fun _ hv => absurd hv List.not_mem_nil)
    (fun _ _ hfirst hrest => List.forall_mem_cons.mpr ⟨hfirst, hrest⟩)
    (fun _ hm => absurd hm List.not_mem_nil)
    (fun _ _ hfirst hrest => List.forall_mem_cons.mpr ⟨hfirst, hrest⟩)
    (fun _ _ h => h) v

/-- A provider may assume the claim of what it renders its rows by, a map that of each of
its entries. -/
@[elab_as_elim]
theorem Definition.induction {motive : Definition → Prop} (scalar : ∀ v, motive (.scalar v))
    (field : ∀ f, motive (.field f))
    (provider : ∀ shape source params each, motive each →
      motive (.provider shape source params each))
    (map : ∀ entries, (∀ e ∈ entries, motive e.2) → motive (.map entries))
    (row : motive .row) (d : Definition) : motive d :=
  @Definition.rec motive (fun entries => ∀ e ∈ entries, motive e.2) (fun e => motive e.2)
    scalar field provider map row
    (fun _ he => absurd he List.not_mem_nil)
    (fun _ _ hfirst hrest => List.forall_mem_cons.mpr ⟨hfirst, hrest⟩)
    (fun _ _ h => h) d

theorem exists_forall₂ {α β : Type} {R : α → β → Prop} {items : List α} :
    (∃ results, List.Forall₂ R items results) ↔ ∀ a ∈ items, ∃ b, R a b := by
  induction items with
  | nil => exact ⟨fun _ _ h => absurd h List.not_mem_nil, fun _ => ⟨[], .nil⟩⟩
  | cons a rest ih =>
      rw [List.forall_mem_cons, ← ih]
      constructor
      · intro h
        obtain ⟨_, h⟩ := h
        cases h with
        | cons hfirst hrest => exact ⟨⟨_, hfirst⟩, _, hrest⟩
      · intro h
        obtain ⟨⟨b, hfirst⟩, bs, hrest⟩ := h
        exact ⟨b :: bs, .cons hfirst hrest⟩

/-- A sequence succeeds when both of its steps do. -/
theorem bind_eq_ok {ε α β : Type} {x : Except ε α} {f : α → Except ε β} {b : β} :
    (x >>= f) = .ok b ↔ ∃ a, x = .ok a ∧ f a = .ok b := by
  cases x with
  | error e => simp only [bind, Except.bind, reduceCtorEq, false_and, exists_false]
  | ok a => simp only [bind, Except.bind, Except.ok.injEq, exists_eq_left']

/-- A sequence fails with the error of the first step that does. -/
theorem bind_eq_error {ε α β : Type} {x : Except ε α} {f : α → Except ε β} {e : ε} :
    (x >>= f) = .error e ↔ x = .error e ∨ ∃ a, x = .ok a ∧ f a = .error e := by
  cases x with
  | error e' =>
      simp only [bind, Except.bind, reduceCtorEq, false_and, exists_false, or_false,
        Except.error.injEq]
  | ok a => simp only [bind, Except.bind, reduceCtorEq, Except.ok.injEq, exists_eq_left', false_or]

theorem pure_eq_ok {ε α : Type} {a b : α} : (pure a : Except ε α) = .ok b ↔ b = a := by
  simp only [pure, Except.pure, Except.ok.injEq, eq_comm]

theorem pure_eq_error {ε α : Type} {a : α} {e : ε} : (pure a : Except ε α) = .error e ↔ False := by
  simp only [pure, Except.pure, reduceCtorEq]

end RowShape
