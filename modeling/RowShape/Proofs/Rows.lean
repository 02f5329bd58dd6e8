import Mathlib.Data.List.Induction
import Mathlib.Data.List.Nodup
import RowShape.Json.Basic

/-!
Rows as ordered records. A row that is built from named values keeps one member for each
name, where the name came first and with the value that came last, and building it in two
parts is updating the first part by the second.
-/

namespace RowShape.Row

theorem names_insert (row : Row) (name : String) (v : Json) :
    (row.insert name v).map (·.1) =
      if name ∈ row.map (·.1) then row.map (·.1) else row.map (·.1) ++ [name] := by
  induction row with
  | nil => rfl
  | cons m rest ih =>
      obtain ⟨n, w⟩ := m
      simp only [insert]
      by_cases h : n = name
      · simp [h]
      · simp only [h, ↓reduceIte, List.map_cons, ih, List.mem_cons, Ne.symm h, false_or]
        split <;> simp

theorem ofList_concat (members : List (String × Json)) (m : String × Json) :
    ofList (members ++ [m]) = (ofList members).insert m.1 m.2 := by
  simp only [ofList, List.foldl_concat]

theorem names_ofList (members : List (String × Json)) :
    (ofList members).map (·.1) = (members.map (·.1)).eraseDups := by
  induction members using List.reverseRecOn with
  | nil => rfl
  | append_singleton init m ih =>
      rw [ofList_concat, names_insert, ih, List.map_append, List.eraseDups_append]
      simp only [List.mem_eraseDups, List.map_cons, List.map_nil, List.removeAll]
      split <;> simp_all [List.eraseDups_cons]

theorem nodup_names_ofList (members : List (String × Json)) :
    ((ofList members).map (·.1)).Nodup := by
  induction members using List.reverseRecOn with
  | nil => exact .nil
  | append_singleton init m ih =>
      rw [ofList_concat, names_insert]
      split
      · exact ih
      · next h => exact List.concat_eq_append ▸ ih.concat h

theorem get?_ofList (members : List (String × Json)) (name : String) :
    (ofList members).get? name = members.reverse.lookup name := by
  induction members using List.reverseRecOn with
  | nil => rfl
  | append_singleton init m ih =>
      rw [ofList_concat, get?_insert, ih, List.reverse_concat]
      exact (get?_cons init.reverse m.1 name m.2).symm

theorem get?_eq_some_of_mem {row : Row} (hnodup : (row.map (·.1)).Nodup) {m : String × Json}
    (hm : m ∈ row) : row.get? m.1 = some m.2 := by
  induction row with
  | nil => exact absurd hm List.not_mem_nil
  | cons first rest ih =>
      obtain ⟨hfirst, hrest⟩ := List.nodup_cons.mp hnodup
      rw [get?_cons]
      rcases List.mem_cons.mp hm with rfl | hm
      · rw [if_pos rfl]
      · have hne : m.1 ≠ first.1 := by
          intro heq
          exact hfirst (List.mem_map.mpr ⟨m, hm, heq⟩)
        rw [if_neg hne, ih hrest hm]

theorem get?_eq_some_iff {row : Row} (hnodup : (row.map (·.1)).Nodup) {name : String}
    {v : Json} : row.get? name = some v ↔ (name, v) ∈ row := by
  refine ⟨fun h => ?_, get?_eq_some_of_mem hnodup⟩
  obtain ⟨before, after, rfl, _⟩ := List.lookup_eq_some_iff.mp h
  exact List.mem_append_right before List.mem_cons_self

/-- Where every name occurs once, the order of a row does not matter. -/
theorem get?_perm {row other : Row} (hnodup : (row.map (·.1)).Nodup) (h : row.Perm other)
    (name : String) : row.get? name = other.get? name := by
  have hother : (other.map (·.1)).Nodup := (h.map (·.1)).nodup_iff.mp hnodup
  ext v
  rw [get?_eq_some_iff hnodup, get?_eq_some_iff hother, h.mem_iff]

theorem insert_of_not_mem {row : Row} {name : String} (h : name ∉ row.map (·.1)) (v : Json) :
    row.insert name v = row ++ [(name, v)] := by
  induction row with
  | nil => rfl
  | cons m rest ih =>
      obtain ⟨hne, hrest⟩ : m.1 ≠ name ∧ name ∉ rest.map (·.1) := by simpa [eq_comm] using h
      simp only [insert, hne, ↓reduceIte, ih hrest, List.cons_append]

theorem ofList_of_nodup {members : List (String × Json)} (h : (members.map (·.1)).Nodup) :
    ofList members = members := by
  induction members using List.reverseRecOn with
  | nil => rfl
  | append_singleton init m ih =>
      rw [List.map_append, List.map_singleton, List.nodup_append] at h
      obtain ⟨hinit, -, hdisjoint⟩ := h
      have hm : m.1 ∉ init.map (·.1) := fun hmem =>
        hdisjoint m.1 hmem m.1 (List.mem_singleton_self _) rfl
      rw [ofList_concat, ih hinit, insert_of_not_mem hm]

/-- Inserts the members of another row, from first to last. -/
def update (row : Row) (members : List (String × Json)) : Row :=
  members.foldl (fun row m => row.insert m.1 m.2) row

theorem insert_insert (row : Row) (name : String) (v w : Json) :
    (row.insert name v).insert name w = row.insert name w := by
  induction row with
  | nil => simp [insert]
  | cons m rest ih =>
      by_cases h : m.1 = name
      · simp [insert, h]
      · simp [insert, h, ih]

theorem insert_comm {row : Row} {name other : String} (hmem : name ∈ row.map (·.1))
    (hne : other ≠ name) (v w : Json) :
    (row.insert other w).insert name v = (row.insert name v).insert other w := by
  induction row with
  | nil => exact absurd hmem List.not_mem_nil
  | cons m rest ih =>
      obtain ⟨n, u⟩ := m
      by_cases hn : n = name
      · simp [insert, hn, Ne.symm hne]
      · have hrest : name ∈ rest.map (·.1) := by simpa [Ne.symm hn] using hmem
        by_cases ho : n = other
        · simp [insert, ho, hne]
        · simp [insert, hn, ho, ih hrest]

theorem mem_names_insert {row : Row} {name other : String} (v : Json)
    (h : name ∈ row.map (·.1) ∨ name = other) : name ∈ (row.insert other v).map (·.1) := by
  rw [names_insert]
  split
  · rcases h with h | rfl <;> assumption
  · rcases h with h | rfl <;> simp_all

/-- A member whose name the row holds already may be inserted before others or after them. -/
theorem update_insert_of_mem {row : Row} {members : List (String × Json)} {name : String}
    (hmem : name ∈ row.map (·.1)) (hother : name ∉ members.map (·.1)) (v : Json) :
    (row.insert name v).update members = (row.update members).insert name v := by
  induction members generalizing row with
  | nil => rfl
  | cons m rest ih =>
      obtain ⟨hne, hrest⟩ : m.1 ≠ name ∧ name ∉ rest.map (·.1) := by
        simpa [eq_comm] using hother
      change ((row.insert name v).insert m.1 m.2).update rest = _
      rw [← insert_comm hmem hne, ih (mem_names_insert m.2 (.inl hmem)) hrest]
      rfl

theorem update_insert {row members : Row} (hnodup : (members.map (·.1)).Nodup) (name : String)
    (v : Json) : row.update (members.insert name v) = (row.update members).insert name v := by
  induction members generalizing row with
  | nil => rfl
  | cons m rest ih =>
      obtain ⟨n, u⟩ := m
      obtain ⟨hfirst, hrest⟩ := List.nodup_cons.mp hnodup
      simp only [insert]
      split
      · next h =>
          subst h
          change (row.insert n v).update rest = ((row.insert n u).update rest).insert n v
          rw [← update_insert_of_mem (mem_names_insert u (.inr rfl)) hfirst, insert_insert]
      · exact ih hrest

/-- Building an object in two parts is updating the first by the second. -/
theorem ofList_append (xs ys : List (String × Json)) :
    ofList (xs ++ ys) = (ofList xs).update (ofList ys) := by
  induction ys using List.reverseRecOn with
  | nil => rw [List.append_nil]; rfl
  | append_singleton init m ih =>
      rw [← List.append_assoc, ofList_concat, ih, ofList_concat,
        update_insert (nodup_names_ofList init)]

end RowShape.Row
