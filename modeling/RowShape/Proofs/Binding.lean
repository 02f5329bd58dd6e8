import Mathlib.Data.List.Dedup
import Mathlib.Data.List.Perm.Basic
import Mathlib.Order.Bounds.Basic
import RowShape.Proofs.Basic
import RowShape.Sqlite.Binding

/-!
Binding gives every slot of a statement one entry and every entry one slot. It fails where
that cannot be: when there are more or fewer entries than slots, or when two entries have
the same slot of their own, so that another slot stays empty.
-/

namespace RowShape.Sqlite

/-- What a name is looked up as, in order. -/
def spellings (name : String) : List String :=
  if name.toList.head? ∈ [some ':', some '@', some '$'] then [name]
  else [":" ++ name, "@" ++ name, "$" ++ name]

theorem slotOf?_eq (declared : String → Option Nat) (name : String) :
    slotOf? declared name = (spellings name).findSome? declared := by
  have hmark : (nameMarks.any fun m => name.toList.head? == some m) = true ↔
      name.toList.head? ∈ [some ':', some '@', some '$'] := by
    simp only [nameMarks, List.any_cons, List.any_nil, Bool.or_false, Bool.or_eq_true, beq_iff_eq,
      List.mem_cons, List.not_mem_nil, or_false]
  simp only [slotOf?, spellings, hmark]
  split
  · rw [List.findSome?_singleton]
  · simp only [nameMarks, String.ofList_cons, String.ofList_toList, List.findSome?_cons,
      List.findSome?_nil]
    rfl

/-- Where the entries with a slot of their own go, in the order in which they stand. -/
def ownSlots (declared : String → Option Nat) (params : List Bound) : List Nat :=
  params.filterMap (entrySlot? declared)

/-- The entries without a slot of their own. -/
def others (declared : String → Option Nat) (params : List Bound) : List Bound :=
  params.filter fun b => (entrySlot? declared b).isNone

/-- The slots that are left to those, lowest first. -/
def freeSlots (count : Nat) (declared : String → Option Nat) (params : List Bound) : List Nat :=
  (List.range' 1 count).filter fun i => i ∉ ownSlots declared params

/-- The free slots that those leave empty, of which they take the lowest. -/
def unfilled (count : Nat) (declared : String → Option Nat) (params : List Bound) : List Nat :=
  (freeSlots count declared params).drop (others declared params).length

section
variable {declared : String → Option Nat} {params : List Bound} {count : Nat}

theorem mem_ownSlots {i : Nat} :
    i ∈ ownSlots declared params ↔ ∃ b ∈ params, entrySlot? declared b = some i :=
  List.mem_filterMap

theorem mem_freeSlots {i : Nat} :
    i ∈ freeSlots count declared params ↔
      (1 ≤ i ∧ i < 1 + count) ∧ i ∉ ownSlots declared params := by
  rw [freeSlots, List.mem_filter, List.mem_range'_1, decide_eq_true_eq]

theorem ownSlots_cons_of_some {b : Bound} {i : Nat} (h : entrySlot? declared b = some i) :
    ownSlots declared (b :: params) = i :: ownSlots declared params :=
  List.filterMap_cons_some h

theorem ownSlots_cons_of_none {b : Bound} (h : entrySlot? declared b = none) :
    ownSlots declared (b :: params) = ownSlots declared params :=
  List.filterMap_cons_none h

theorem others_cons_of_some {b : Bound} {i : Nat} (h : entrySlot? declared b = some i) :
    others declared (b :: params) = others declared params :=
  List.filter_cons_of_neg (by simp [h])

theorem others_cons_of_none {b : Bound} (h : entrySlot? declared b = none) :
    others declared (b :: params) = b :: others declared params :=
  List.filter_cons_of_pos (by simp [h])

theorem length_ownSlots_add_others :
    (ownSlots declared params).length + (others declared params).length = params.length := by
  induction params with
  | nil => rfl
  | cons b rest ih =>
      cases h : entrySlot? declared b with
      | some i =>
          rw [ownSlots_cons_of_some h, others_cons_of_some h, List.length_cons, List.length_cons]
          omega
      | none =>
          rw [ownSlots_cons_of_none h, others_cons_of_none h, List.length_cons, List.length_cons]
          omega

/-- The slots of a statement are those with an entry of their own and the free ones. -/
theorem ownSlots_append_freeSlots
    (hrange : ∀ i ∈ ownSlots declared params, 1 ≤ i ∧ i ≤ count) :
    ((ownSlots declared params).dedup ++ freeSlots count declared params).Perm
      (List.range' 1 count) := by
  have hdisjoint : (ownSlots declared params).dedup.Disjoint
      (freeSlots count declared params) := fun i hown hfree =>
    (mem_freeSlots.mp hfree).2 (List.mem_dedup.mp hown)
  have hfree : (freeSlots count declared params).Nodup := (List.nodup_range' ..).filter _
  rw [List.perm_ext_iff_of_nodup ((List.nodup_dedup _).append hfree hdisjoint) List.nodup_range']
  intro i
  rw [List.mem_append, List.mem_dedup, mem_freeSlots, List.mem_range'_1]
  constructor
  · intro h
    rcases h with hown | hfree
    · have := hrange i hown
      omega
    · exact hfree.1
  · intro h
    by_cases hown : i ∈ ownSlots declared params
    · exact .inl hown
    · exact .inr ⟨h, hown⟩

/-- As many slots are free as entries need one, exactly when no two entries have the same
slot of their own; otherwise more are. -/
theorem length_freeSlots (hrange : ∀ i ∈ ownSlots declared params, 1 ≤ i ∧ i ≤ count)
    (hlength : params.length = count) :
    (others declared params).length ≤ (freeSlots count declared params).length ∧
      ((ownSlots declared params).Nodup ↔
        (freeSlots count declared params).length = (others declared params).length) := by
  have hslots := (ownSlots_append_freeSlots hrange).length_eq
  rw [List.length_append, List.length_range'] at hslots
  have hentries : (ownSlots declared params).length + (others declared params).length =
      params.length := length_ownSlots_add_others
  have hsub := List.dedup_sublist (ownSlots declared params)
  have hle := hsub.length_le
  refine ⟨by omega, ?_⟩
  rw [← List.dedup_eq_self]
  constructor
  · intro h
    rw [h] at hslots
    omega
  · intro h
    exact hsub.eq_of_length (by omega)

section
variable {slots : List (Option Json)}

theorem place_snd : (place declared params slots).2 = (others declared params).map (·.value) := by
  induction params generalizing slots with
  | nil => rfl
  | cons b rest ih =>
      cases h : entrySlot? declared b with
      | some i => simp only [place, h, ih, others_cons_of_some h]
      | none => simp only [place, h, ih, others_cons_of_none h, List.map_cons]

theorem length_place : (place declared params slots).1.length = slots.length := by
  induction params generalizing slots with
  | nil => rfl
  | cons b rest ih =>
      cases h : entrySlot? declared b with
      | some i => simp only [place, h, ih, List.length_set]
      | none => simp only [place, h, ih]

/-- Nothing is put into a slot but by the entries whose own slot it is. -/
theorem place_of_not_mem {j : Nat} (hrange : ∀ i ∈ ownSlots declared params, 1 ≤ i)
    (hj : j + 1 ∉ ownSlots declared params) :
    (place declared params slots).1[j]? = slots[j]? := by
  induction params generalizing slots with
  | nil => rfl
  | cons b rest ih =>
      cases h : entrySlot? declared b with
      | none =>
          rw [ownSlots_cons_of_none h] at hrange hj
          simp only [place, h]
          exact ih hrange hj
      | some i =>
          rw [ownSlots_cons_of_some h] at hrange hj
          obtain ⟨hi, hrest⟩ := List.forall_mem_cons.mp hrange
          rw [List.mem_cons, not_or] at hj
          obtain ⟨hne, hj⟩ := hj
          simp only [place, h]
          rw [ih hrest hj, List.getElem?_set_ne (by omega)]

/-- A slot of its own holds the last of the entries that have it. -/
theorem place_of_mem {i : Nat}
    (hrange : ∀ i ∈ ownSlots declared params, 1 ≤ i ∧ i ≤ slots.length)
    (hi : i ∈ ownSlots declared params) : ∃ b ∈ params, entrySlot? declared b = some i ∧
      (place declared params slots).1[i - 1]? = some (some b.value) := by
  induction params generalizing slots with
  | nil => exact absurd hi List.not_mem_nil
  | cons b rest ih =>
      cases h : entrySlot? declared b with
      | none =>
          rw [ownSlots_cons_of_none h] at hrange hi
          obtain ⟨c, hc, hslot, hput⟩ := ih hrange hi
          refine ⟨c, List.mem_cons_of_mem b hc, hslot, ?_⟩
          simp only [place, h]
          exact hput
      | some k =>
          rw [ownSlots_cons_of_some h] at hrange hi
          obtain ⟨hk, hrest⟩ := List.forall_mem_cons.mp hrange
          simp only [place, h]
          by_cases hlater : i ∈ ownSlots declared rest
          · rw [← List.length_set (i := k - 1) (a := some b.value)] at hrest
            obtain ⟨c, hc, hslot, hput⟩ := ih hrest hlater
            exact ⟨c, List.mem_cons_of_mem b hc, hslot, hput⟩
          · obtain rfl : i = k := (List.mem_cons.mp hi).resolve_right hlater
            refine ⟨b, List.mem_cons_self, h, ?_⟩
            have hsucc : i - 1 + 1 = i := by omega
            rw [place_of_not_mem (fun j hj => (hrest j hj).1) (hsucc ▸ hlater),
              List.getElem?_set_self (by omega)]

end

/-- The numbers of the empty slots, counting from `index`. -/
def empties : Nat → List (Option Json) → List Nat
  | _, [] => []
  | index, some _ :: slots => empties (index + 1) slots
  | index, none :: slots => index :: empties (index + 1) slots

theorem empties_eq_filter (index : Nat) (slots : List (Option Json)) :
    empties index slots =
      (List.range' index slots.length).filter fun i => (slots[i - index]?.join).isNone := by
  induction slots generalizing index with
  | nil => rfl
  | cons s rest ih =>
      have hrest : ((List.range' (index + 1) rest.length).filter
            fun i => (((s :: rest)[i - index]?).join).isNone) = empties (index + 1) rest := by
        rw [ih]
        apply List.filter_congr
        intro i hi
        have hshift : i - index = i - (index + 1) + 1 := by
          have := (List.mem_range'_1.mp hi).1
          omega
        rw [hshift, List.getElem?_cons_succ]
      rw [List.length_cons, List.range'_succ, List.filter_cons, hrest, Nat.sub_self]
      cases s <;> rfl

/-- Filling fails at the first empty slot for which no value is left. -/
theorem fill_eq_error {index e : Nat} {slots : List (Option Json)} {values : List Json} :
    fill index slots values = .error e ↔ (empties index slots)[values.length]? = some e := by
  fun_induction fill index slots values with
  | case1 index values => simp only [empties, List.getElem?_nil, reduceCtorEq]
  | case2 index v slots values ih =>
      simp only [bind_eq_error, ih, pure_eq_error, and_false, exists_false, or_false, empties]
  | case3 index slots v values ih =>
      simp only [bind_eq_error, ih, pure_eq_error, and_false, exists_false, or_false, empties,
        List.length_cons, List.getElem?_cons_succ]
  | case4 index slots =>
      simp only [empties, List.length_nil, List.getElem?_cons_zero, Except.error.injEq,
        Option.some.injEq]

theorem map_empties_cons (index : Nat) (slots : List (Option Json)) (v : Json) (out : List Json) :
    (empties (index + 1) slots).map (fun i => (v :: out)[i - index]?) =
      (empties (index + 1) slots).map fun i => out[i - (index + 1)]? := by
  apply List.map_congr_left
  intro i hi
  rw [empties_eq_filter, List.mem_filter, List.mem_range'_1] at hi
  have hshift : i - index = i - (index + 1) + 1 := by omega
  rw [hshift, List.getElem?_cons_succ]

/-- A filled slot keeps its value, and the empty ones take the values in order. -/
theorem of_fill_eq_ok {index : Nat} {slots : List (Option Json)} {values out : List Json}
    (h : fill index slots values = .ok out) :
    out.length = slots.length ∧
      (∀ (j : Nat) (v : Json), slots[j]? = some (some v) → out[j]? = some v) ∧
      (empties index slots).map (fun i => out[i - index]?) =
        (values.take (empties index slots).length).map some := by
  fun_induction fill index slots values generalizing out with
  | case1 index values =>
      cases h
      refine ⟨rfl, fun j v hv => ?_, rfl⟩
      cases hv
  | case2 index v slots values ih =>
      simp only [bind_eq_ok, pure_eq_ok] at h
      obtain ⟨rest, hrest, rfl⟩ := h
      obtain ⟨hlength, hkept, htaken⟩ := ih hrest
      refine ⟨by rw [List.length_cons, List.length_cons, hlength], ?_, ?_⟩
      · intro j w hw
        cases j with
        | zero => rw [List.getElem?_cons_zero] at hw ⊢; exact Option.some.inj hw
        | succ j => exact hkept j w hw
      · rw [empties, map_empties_cons]
        exact htaken
  | case3 index slots v values ih =>
      simp only [bind_eq_ok, pure_eq_ok] at h
      obtain ⟨rest, hrest, rfl⟩ := h
      obtain ⟨hlength, hkept, htaken⟩ := ih hrest
      refine ⟨by rw [List.length_cons, List.length_cons, hlength], ?_, ?_⟩
      · intro j w hw
        cases j with
        | zero => cases hw
        | succ j => exact hkept j w hw
      · rw [empties, List.map_cons, map_empties_cons, htaken, Nat.sub_self, List.length_cons,
          List.take_succ_cons, List.map_cons, List.getElem?_cons_zero]
  | case4 index slots => cases h

/-- Entries in a binding without errors: every slot has the value of one entry, every entry
is used once, an entry with a slot of its own is there, and the others take the free slots
in their order. -/
structure Seated (count : Nat) (declared : String → Option Nat) (params : List Bound)
    (values : List Json) : Prop where
  length : values.length = count
  uses : values.Perm (params.map (·.value))
  own : ∀ b ∈ params, ∀ i, entrySlot? declared b = some i → values[i - 1]? = some b.value
  rest : (freeSlots count declared params).map (fun i => values[i - 1]?) =
    (others declared params).map fun b => some b.value

section
variable (hrange : ∀ i ∈ ownSlots declared params, 1 ≤ i ∧ i ≤ count)
include hrange

theorem placed_of_mem {i : Nat} (hi : i ∈ ownSlots declared params) :
    ∃ b ∈ params, entrySlot? declared b = some i ∧
      (place declared params (List.replicate count none)).1[i - 1]? = some (some b.value) :=
  place_of_mem (by rwa [List.length_replicate]) hi

theorem empties_place :
    empties 1 (place declared params (List.replicate count none)).1 =
      freeSlots count declared params := by
  rw [empties_eq_filter, freeSlots, length_place, List.length_replicate]
  apply List.filter_congr
  intro i hi
  have hi := List.mem_range'_1.mp hi
  by_cases hown : i ∈ ownSlots declared params
  · obtain ⟨b, _, _, hput⟩ := placed_of_mem hrange hown
    simp [hput, hown]
  · have hsucc : i - 1 + 1 = i := by omega
    rw [place_of_not_mem (fun j hj => (hrange j hj).1) (hsucc ▸ hown),
      List.getElem?_replicate_of_lt (by omega)]
    simp [hown]

omit hrange in
theorem eq_of_slot_eq (hnodup : (ownSlots declared params).Nodup) {b c : Bound} {i : Nat}
    (hb : b ∈ params) (hc : c ∈ params) (hbi : entrySlot? declared b = some i)
    (hci : entrySlot? declared c = some i) : b = c := by
  rw [ownSlots, List.Nodup, List.pairwise_filterMap] at hnodup
  rw [List.pairwise_iff_getElem] at hnodup
  obtain ⟨j, hj, rfl⟩ := List.getElem_of_mem hb
  obtain ⟨k, hk, rfl⟩ := List.getElem_of_mem hc
  rcases Nat.lt_trichotomy j k with hlt | rfl | hlt
  · exact absurd rfl (hnodup j k hj hk hlt i hbi i hci)
  · rfl
  · exact absurd rfl (hnodup k j hk hj hlt i hci i hbi)

omit hrange in
theorem ownSlots_append_others {f : Nat → Option Json}
    (h : ∀ b ∈ params, ∀ i, entrySlot? declared b = some i → f i = some b.value) :
    ((ownSlots declared params).map f ++ (others declared params).map fun b => some b.value).Perm
      (params.map fun b => some b.value) := by
  induction params with
  | nil => exact .nil
  | cons b rest ih =>
      obtain ⟨hfirst, hrest⟩ := List.forall_mem_cons.mp h
      cases hslot : entrySlot? declared b with
      | some i =>
          rw [ownSlots_cons_of_some hslot, others_cons_of_some hslot, List.map_cons, List.map_cons,
            hfirst i hslot]
          exact (ih hrest).cons _
      | none =>
          rw [ownSlots_cons_of_none hslot, others_cons_of_none hslot, List.map_cons, List.map_cons]
          exact List.perm_middle.trans ((ih hrest).cons _)

theorem Seated.of_fill (hlength : params.length = count)
    (hnodup : (ownSlots declared params).Nodup) {values : List Json}
    (h : fill 1 (place declared params (List.replicate count none)).1
      ((others declared params).map (·.value)) = .ok values) :
    Seated count declared params values := by
  obtain ⟨hsize, hkept, htaken⟩ := of_fill_eq_ok h
  have hfree := (length_freeSlots hrange hlength).2.mp hnodup
  have hown : ∀ b ∈ params, ∀ i, entrySlot? declared b = some i →
      values[i - 1]? = some b.value := by
    intro b hb i hi
    obtain ⟨c, hc, hci, hput⟩ := placed_of_mem hrange (mem_ownSlots.mpr ⟨b, hb, hi⟩)
    rw [eq_of_slot_eq hnodup hb hc hi hci]
    exact hkept _ _ hput
  have hrest : (freeSlots count declared params).map (fun i => values[i - 1]?) =
      (others declared params).map fun b => some b.value := by
    rw [empties_place hrange, hfree, List.take_of_length_le (Nat.le_of_eq (List.length_map _)),
      List.map_map] at htaken
    exact htaken
  have hcount : values.length = count := by rw [hsize, length_place, List.length_replicate]
  refine ⟨hcount, ?_, hown, hrest⟩
  have hvalues : values.map some = (List.range' 1 count).map fun i => values[i - 1]? := by
    apply List.ext_getElem
    · rw [List.length_map, List.length_map, List.length_range', hcount]
    · intro j hj _
      rw [List.length_map] at hj
      simp [List.getElem?_eq_getElem hj]
  have hslots := ownSlots_append_freeSlots hrange
  rw [List.dedup_eq_self.mpr hnodup] at hslots
  have hperm : (values.map some).Perm ((params.map (·.value)).map some) := by
    rw [hvalues, List.map_map]
    refine (hslots.map _).symm.trans ?_
    rw [List.map_append, hrest]
    exact ownSlots_append_others hown
  exact (List.map_perm_map_iff fun _ _ h => Option.some.inj h).mp hperm

theorem bind_of_nodup (hlength : params.length = count)
    (hnodup : (ownSlots declared params).Nodup) :
    ∃ values, bind count declared params = .ok values ∧
      Seated count declared params values := by
  have hfree := (length_freeSlots hrange hlength).2.mp hnodup
  cases hfill : fill 1 (place declared params (List.replicate count none)).1
      ((others declared params).map (·.value)) with
  | error e =>
      -- no slot is left over, so filling cannot fail
      rw [fill_eq_error, empties_place hrange, List.length_map, ← hfree,
        List.getElem?_length] at hfill
      cases hfill
  | ok values =>
      refine ⟨values, ?_, .of_fill hrange hlength hnodup hfill⟩
      simp only [bind, hlength, ne_eq, not_true, ↓reduceIte, place_snd, hfill]

omit hrange in
theorem isLeast_unfilled
    (hlt : (others declared params).length < (freeSlots count declared params).length) :
    IsLeast {i | i ∈ unfilled count declared params}
      (freeSlots count declared params)[(others declared params).length] := by
  have hsorted : (unfilled count declared params).Pairwise (· < ·) :=
    (List.Pairwise.filter _ List.pairwise_lt_range').drop
  rw [unfilled, List.drop_eq_getElem_cons hlt] at hsorted ⊢
  refine ⟨List.mem_cons_self, fun i hi => ?_⟩
  rcases List.mem_cons.mp hi with rfl | hi
  · exact le_rfl
  · exact Nat.le_of_lt (List.rel_of_pairwise_cons hsorted hi)

theorem bind_of_not_nodup (hlength : params.length = count)
    (hnodup : ¬ (ownSlots declared params).Nodup) :
    ∃ slot, IsLeast {i | i ∈ unfilled count declared params} slot ∧
      bind count declared params =
        .error (.configuration s!"no value bound for parameter {slot}") := by
  obtain ⟨hle, hiff⟩ := length_freeSlots hrange hlength
  have hlt : (others declared params).length < (freeSlots count declared params).length :=
    Nat.lt_of_le_of_ne hle fun heq => hnodup (hiff.mpr heq.symm)
  refine ⟨_, isLeast_unfilled hlt, ?_⟩
  have hfill : fill 1 (place declared params (List.replicate count none)).1
      ((others declared params).map (·.value)) =
        .error (freeSlots count declared params)[(others declared params).length] := by
    rw [fill_eq_error, empties_place hrange, List.length_map, List.getElem?_eq_getElem hlt]
  simp only [bind, hlength, ne_eq, not_true, ↓reduceIte, place_snd, hfill]

end

theorem bind_eq_parameterCount :
    bind count declared params = .error (.database (.parameterCount params.length count)) ↔
      params.length ≠ count := by
  by_cases hlength : params.length = count
  · simp only [bind, hlength, ne_eq, not_true, ↓reduceIte, iff_false]
    split <;> simp only [reduceCtorEq, not_false_eq_true, Except.error.injEq]
  · simp only [bind, ne_eq, hlength, not_false_eq_true, ↓reduceIte]

/-- A binding is fixed by where its entries belong. -/
theorem Seated.unique {values values' : List Json} (h : Seated count declared params values)
    (h' : Seated count declared params values') : values = values' := by
  apply List.ext_getElem?
  intro j
  by_cases hj : j < count
  · by_cases hown : j + 1 ∈ ownSlots declared params
    · obtain ⟨b, hb, hslot⟩ := mem_ownSlots.mp hown
      exact (h.own b hb _ hslot).trans (h'.own b hb _ hslot).symm
    · have hfree : j + 1 ∈ freeSlots count declared params := mem_freeSlots.mpr ⟨by omega, hown⟩
      exact List.map_inj_left.mp (h.rest.trans h'.rest.symm) _ hfree
  · rw [List.getElem?_eq_none (by rw [h.length]; omega),
      List.getElem?_eq_none (by rw [h'.length]; omega)]

section
variable {reordered : List Bound} (hperm : reordered.Perm params)
  (hothers : others declared reordered = others declared params)
include hperm

theorem freeSlots_perm : freeSlots count declared reordered = freeSlots count declared params := by
  have hmem : ∀ i, i ∈ ownSlots declared reordered ↔ i ∈ ownSlots declared params := fun i =>
    (hperm.filterMap (entrySlot? declared)).mem_iff
  simp only [freeSlots, hmem]

include hothers

theorem Seated.perm {values : List Json} (h : Seated count declared reordered values) :
    Seated count declared params values where
  length := h.length
  uses := h.uses.trans (hperm.map _)
  own b hb := h.own b (hperm.mem_iff.mpr hb)
  rest := by rw [← freeSlots_perm hperm, h.rest, hothers]

theorem bind_perm (hrange : ∀ i ∈ ownSlots declared params, 1 ≤ i ∧ i ≤ count) :
    bind count declared reordered = bind count declared params := by
  have hown : (ownSlots declared reordered).Perm (ownSlots declared params) :=
    hperm.filterMap (entrySlot? declared)
  have hrange' : ∀ i ∈ ownSlots declared reordered, 1 ≤ i ∧ i ≤ count :=
    fun i hi => hrange i (hown.mem_iff.mp hi)
  by_cases hlength : params.length = count
  · have hlength' : reordered.length = count := hperm.length_eq.trans hlength
    by_cases hnodup : (ownSlots declared params).Nodup
    · obtain ⟨values, hbind, h⟩ := bind_of_nodup hrange hlength hnodup
      obtain ⟨values', hbind', h'⟩ := bind_of_nodup hrange' hlength' (hown.nodup_iff.mpr hnodup)
      -- both are bindings of `params`, which has only one
      rw [hbind, hbind', (h'.perm hperm hothers).unique h]
    · obtain ⟨slot, hslot, hbind⟩ := bind_of_not_nodup hrange hlength hnodup
      obtain ⟨slot', hslot', hbind'⟩ :=
        bind_of_not_nodup hrange' hlength' (mt hown.nodup_iff.mp hnodup)
      rw [unfilled, freeSlots_perm hperm, hothers] at hslot'
      rw [hbind, hbind', hslot'.unique hslot]
  · rw [bind_eq_parameterCount.mpr hlength,
      bind_eq_parameterCount.mpr (hperm.length_eq ▸ hlength), hperm.length_eq]

end

/-- Binding matches the entries with the slots `1 .. count` one to one, or fails for one of
two reasons: their numbers differ, or two entries have the same slot of their own. It does
not matter where the entries stand, apart from the order of those without a slot. -/
theorem bind_bijective
    (hrange : ∀ name i, declared name = some i → 1 ≤ i ∧ i ≤ count) (params : List Bound) :
    (∀ b, entrySlot? declared b =
      b.name.bind fun name => (spellings name).findSome? declared) ∧
    (∀ b i, entrySlot? declared b = some i → 1 ≤ i ∧ i ≤ count) ∧
    (bind count declared params = .error (.database (.parameterCount params.length count)) ↔
      params.length ≠ count) ∧
    (params.length = count → ¬ (ownSlots declared params).Nodup →
      ∃ slot, IsLeast {i | i ∈ unfilled count declared params} slot ∧
        bind count declared params =
          .error (.configuration s!"no value bound for parameter {slot}")) ∧
    (params.length = count → (ownSlots declared params).Nodup →
      ∃ values, bind count declared params = .ok values ∧
        Seated count declared params values) ∧
    ∀ reordered : List Bound, reordered.Perm params →
      others declared reordered = others declared params →
      bind count declared reordered = bind count declared params := by
  have hslot : ∀ b, entrySlot? declared b =
      b.name.bind fun name => (spellings name).findSome? declared := by
    intro b
    rw [entrySlot?, funext (slotOf?_eq declared)]
  have hentry : ∀ b i, entrySlot? declared b = some i → 1 ≤ i ∧ i ≤ count := by
    intro b i hi
    rw [hslot, Option.bind_eq_some_iff] at hi
    obtain ⟨name, _, hfound⟩ := hi
    obtain ⟨spelling, _, hdeclared⟩ := List.exists_of_findSome?_eq_some hfound
    exact hrange spelling i hdeclared
  have hown : ∀ i ∈ ownSlots declared params, 1 ≤ i ∧ i ≤ count := by
    intro i hi
    obtain ⟨b, _, hb⟩ := mem_ownSlots.mp hi
    exact hentry b i hb
  exact ⟨hslot, hentry, bind_eq_parameterCount, bind_of_not_nodup hown, bind_of_nodup hown,
    fun reordered hperm hothers => bind_perm hperm hothers hown⟩

/-- The slots of `WHERE name = ? AND id = :id AND id > ?`. -/
def authorSlots : String → Option Nat := fun name => if name = ":id" then some 2 else none

theorem bind_bijective_author :
    let john : Bound := ⟨none, .str "John"⟩
    let id : Bound := ⟨some "id", .int 2⟩
    let zero : Bound := ⟨none, .int 0⟩
    (∀ name i, authorSlots name = some i → 1 ≤ i ∧ i ≤ 3) ∧
      (ownSlots authorSlots [john, id, zero]).Nodup ∧
      (∃ values, bind 3 authorSlots [john, id, zero] = .ok values ∧
        Seated 3 authorSlots [john, id, zero] values) ∧
      others authorSlots [id, john, zero] = others authorSlots [john, id, zero] ∧
      bind 3 authorSlots [id, john, zero] = bind 3 authorSlots [john, id, zero] ∧
      ¬ (ownSlots authorSlots [id, john, id]).Nodup ∧
      bind 3 authorSlots [id, john, id] =
        .error (.configuration "no value bound for parameter 3") := by
  intro john id zero
  have hrange : ∀ name i, authorSlots name = some i → 1 ≤ i ∧ i ≤ 3 := by
    intro name i h
    unfold authorSlots at h
    split at h <;> cases h
    decide
  have hnodup : (ownSlots authorSlots [john, id, zero]).Nodup := by decide
  have hothers : others authorSlots [id, john, zero] = others authorSlots [john, id, zero] := rfl
  have hrepeated : ¬ (ownSlots authorSlots [id, john, id]).Nodup := by decide
  obtain ⟨_, _, _, _, hseated, hreorder⟩ := bind_bijective hrange [john, id, zero]
  obtain ⟨_, _, _, hcollision, _⟩ := bind_bijective hrange [id, john, id]
  obtain ⟨slot, hslot, herror⟩ := hcollision rfl hrepeated
  obtain rfl : slot = 3 := List.mem_singleton.mp hslot.1
  exact ⟨hrange, hnodup, hseated rfl hnodup, hothers,
    hreorder _ (.swap john id [zero]) hothers, hrepeated, herror⟩

end

end RowShape.Sqlite
