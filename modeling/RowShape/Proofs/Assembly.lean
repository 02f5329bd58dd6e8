import Mathlib.Data.List.Forall2
import RowShape.Proofs.Rows
import RowShape.Proofs.Runs

/-!
What a provider makes of its data, given what each row becomes: of two rows with one name the
later one counts, in the place of the earlier one, and a collection is made of all its rows
before a filter sees it.
-/

namespace RowShape

section
variable {α : Type}

/-- An object made from named things, of which a later one takes the place of an earlier one
with its name: the names in the order of their first uses, and for each of them what the
last thing of that name becomes. -/
structure IsRecord (items : List (String × α)) (P : α → Json → Prop) (members : Row) : Prop where
  names : members.map (·.1) = (items.map (·.1)).eraseDups
  values : ∀ m ∈ members, ∃ a, items.reverse.lookup m.1 = some a ∧ P a m.2

theorem IsRecord.imp {P Q : α → Json → Prop} {items : List (String × α)} {members : Row}
    (h : IsRecord items P members) (hPQ : ∀ a v, P a v → Q a v) : IsRecord items Q members where
  names := h.names
  values m hm := by
    obtain ⟨a, ha, hv⟩ := h.values m hm
    exact ⟨a, ha, hPQ a m.2 hv⟩

theorem lookup_of_forall₂ {P : α → Json → Prop} {items : List (String × α)} {named : Row}
    (h : List.Forall₂ (fun item m => item.1 = m.1 ∧ P item.2 m.2) items named) {name : String}
    {v : Json} (hv : named.lookup name = some v) :
    ∃ a, items.lookup name = some a ∧ P a v := by
  induction h with
  | nil => cases hv
  | @cons item m _ _ hhead _ ih =>
      obtain ⟨hname, hvalue⟩ := hhead
      rw [List.lookup_cons] at hv ⊢
      rw [hname]
      cases hm : name == m.1 with
      | true =>
          rw [hm] at hv
          cases hv
          exact ⟨item.2, rfl, hvalue⟩
      | false =>
          rw [hm] at hv
          exact ih hv

theorem IsRecord.ofList {P : α → Json → Prop} {items : List (String × α)} {named : Row}
    (h : List.Forall₂ (fun item m => item.1 = m.1 ∧ P item.2 m.2) items named) :
    IsRecord items P (Row.ofList named) where
  names := by
    have hnames : named.map (·.1) = items.map (·.1) := by
      induction h with
      | nil => rfl
      | cons hhead _ ih => rw [List.map_cons, List.map_cons, ih, hhead.1]
    rw [Row.names_ofList, hnames]
  values m hm := by
    have hlast := Row.get?_eq_some_of_mem (Row.nodup_names_ofList named) hm
    rw [Row.get?_ofList] at hlast
    exact lookup_of_forall₂ (List.forall₂_reverse_iff.mpr h) hlast

end

/-- A row that fetched data holds. -/
inductive RowOf : Json → Row → Prop where
  | single (row : Row) : RowOf (.obj row) row
  | item {items : List Json} {row : Row} (h : .obj row ∈ items) : RowOf (.arr items) row

theorem RowOf.mem {items : List Json} {row : Row} (h : RowOf (.arr items) row) :
    .obj row ∈ items := by
  cases h with
  | item h => exact h

/-- The row that is rendered where one row is wanted. -/
inductive FirstRow : Json → Row → Prop where
  | single (row : Row) : FirstRow (.obj row) row
  | item (row : Row) (rest : List Json) : FirstRow (.arr (.obj row :: rest)) row

/-- A filter is handed the whole collection. -/
inductive Filtered : Option Filter → Collected → Collected → Prop where
  | unfiltered (c : Collected) : Filtered none c c
  | filtered {f : Filter} {c out : Collected} (h : f c = .ok out) : Filtered (some f) c out

/-- Rows as a collection, before a filter: one item for each row in order, or a member for
each of their keys. -/
inductive Collects (P : Row → Json → Prop) : Option RowKey → List Row → Collected → Prop where
  | list {rows : List Row} {items : List Json} (h : List.Forall₂ P rows items) :
      Collects P none rows (.list items)
  | keyed {key : RowKey} {rows : List (String × Row)} {members : Row}
      (hkeys : ∀ row ∈ rows, key.of row.2 = .ok row.1) (h : IsRecord rows P members) :
      Collects P (some key) (rows.map (·.2)) (.keyed members)

/-- What becomes of fetched data, when rows become what `P` says. -/
inductive Assembles (P : Row → Json → Prop) : Provider → Json → Json → Prop where
  | valueNothing {data : Json} (h : data.carriesNothing = true) : Assembles P .value data .null
  | valueRow {data v : Json} {row : Row} (hrow : FirstRow data row) (h : P row v) :
      Assembles P .value data v
  | valueScalar {data : Json} (hrow : ∀ row, data ≠ .obj row) (hrows : ∀ items, data ≠ .arr items) :
      Assembles P .value data data
  | entityNothing {data : Json} (h : data.carriesNothing = true) : Assembles P .entity data .null
  | entityRow {data v : Json} {row : Row} (hrow : FirstRow data row) (h : P row v) :
      Assembles P .entity data v
  | columnNothing {data : Json} (h : data.carriesNothing = true) :
      Assembles P .column data (.arr [])
  | columnRows {rows : List Row} {items : List Json} (h : List.Forall₂ P rows items) :
      Assembles P .column (.arr (rows.map .obj)) (.arr items)
  | collectionNothing {key : Option RowKey} {filter : Option Filter} {data : Json}
      {collected : Collected} (hdata : data.carriesNothing = true)
      (h : Collects P key [] collected) :
      Assembles P (.collection key filter) data collected.toJson
  | collectionRows {key : Option RowKey} {filter : Option Filter} {rows : List Row}
      {collected out : Collected} (h : Collects P key rows collected)
      (hfilter : Filtered filter collected out) :
      Assembles P (.collection key filter) (.arr (rows.map .obj)) out.toJson

theorem Collects.exists_members {P : Row → Json → Prop} {key : RowKey} {rows : List Row}
    {collected : Collected} (h : Collects P (some key) rows collected) :
    ∃ members, collected = .keyed members ∧
      ∀ m ∈ members, ∃ row ∈ rows, key.of row = .ok m.1 ∧ P row m.2 := by
  cases h with
  | @keyed _ named members hkeys h =>
      refine ⟨members, rfl, fun m hm => ?_⟩
      obtain ⟨row, hlast, hvalue⟩ := h.values m hm
      have hmem : (m.1, row) ∈ named := by
        obtain ⟨before, after, heq, _⟩ := List.lookup_eq_some_iff.mp hlast
        rw [← List.mem_reverse, heq]
        exact List.mem_append_right before List.mem_cons_self
      exact ⟨row, List.mem_map.mpr ⟨_, hmem, rfl⟩, hkeys _ hmem, hvalue⟩

/-- A keyed collection without a filter, or with one that only drops items, is an object
whose members are rows under their keys. -/
theorem Assembles.exists_members {P : Row → Json → Prop} {key : RowKey} {filter : Option Filter}
    {data v : Json} (h : Assembles P (.collection (some key) filter) data v)
    (hfilter : filter = none ∨ ∃ keep, filter = some (.retain keep)) :
    ∃ members, v = .obj members ∧
      ∀ m ∈ members, ∃ row, RowOf data row ∧ key.of row = .ok m.1 ∧ P row m.2 := by
  cases h with
  | collectionNothing _ h =>
      obtain ⟨members, rfl, hmembers⟩ := h.exists_members
      refine ⟨members, rfl, fun m hm => ?_⟩
      obtain ⟨row, hrow, _⟩ := hmembers m hm
      exact absurd hrow List.not_mem_nil
  | @collectionRows _ _ rows _ _ h hfiltered =>
      obtain ⟨members, rfl, hmembers⟩ := h.exists_members
      have hkept : ∀ kept : Row, kept ⊆ members → ∀ m ∈ kept, ∃ row,
          RowOf (.arr (rows.map .obj)) row ∧ key.of row = .ok m.1 ∧ P row m.2 := by
        intro kept hsub m hm
        obtain ⟨row, hrow, hm⟩ := hmembers m (hsub hm)
        exact ⟨row, .item (List.mem_map_of_mem hrow), hm⟩
      rcases hfilter with rfl | ⟨keep, rfl⟩
      · cases hfiltered
        exact ⟨members, rfl, hkept members fun _ => id⟩
      · cases hfiltered with
        | filtered hout =>
            cases hout
            exact ⟨_, rfl, hkept _ (List.filter_subset_self members)⟩

section
variable {P Q : Row → Json → Prop} (h : ∀ row v, P row v → Q row v)
include h

theorem Collects.imp {key : Option RowKey} {rows : List Row} {collected : Collected}
    (hP : Collects P key rows collected) : Collects Q key rows collected := by
  cases hP with
  | list hitems => exact .list (hitems.imp h)
  | keyed hkeys hmembers => exact .keyed hkeys (hmembers.imp h)

theorem Assembles.imp {shape : Provider} {data v : Json} (hP : Assembles P shape data v) :
    Assembles Q shape data v := by
  cases hP with
  | valueNothing hdata => exact .valueNothing hdata
  | valueRow hrow hv => exact .valueRow hrow (h _ _ hv)
  | valueScalar hrow hrows => exact .valueScalar hrow hrows
  | entityNothing hdata => exact .entityNothing hdata
  | entityRow hrow hv => exact .entityRow hrow (h _ _ hv)
  | columnNothing hdata => exact .columnNothing hdata
  | columnRows hitems => exact .columnRows (hitems.imp h)
  | collectionNothing hdata hcollected => exact .collectionNothing hdata (hcollected.imp h)
  | collectionRows hcollected hfilter => exact .collectionRows (hcollected.imp h) hfilter

end

/-- The data that a source gives for bound parameters, with the rows that a client answers. -/
inductive Source.Yields (answered : Call → List Row → Prop) (params : List Bound) :
    Source → Json → Prop where
  | query {sql : String} {rows : List Row} (h : answered ⟨sql, params⟩ rows) :
      Yields answered params (.query sql) (.arr (rows.map .obj))
  | fixed (v : Json) : Yields answered params (.fixed v) v
  | callable {run : List Bound → Except Error Json} {v : Json} (h : run params = .ok v) :
      Yields answered params (.callable run) v

section
variable {answered : Call → List Row → Prop} {errors : Error → Prop}

open Fetching

theorem Source.ends_fetch {source : Source} {params : List Bound}
    (herror : ∀ run, source = .callable run → ∀ e, run params = .error e → errors e) :
    (source.fetch params).Ends answered errors (source.Yields answered params) := by
  cases source with
  | query sql => exact (ends_query ⟨sql, params⟩).bind fun rows hrows => ends_done (.query hrows)
  | fixed v => exact ends_done (.fixed v)
  | callable run => exact ends_ofExcept (fun v hv => .callable hv) (herror run rfl)

namespace Provider

theorem ends_row {kind : ProviderKind} {v : Json}
    (hfault : (∀ row, v ≠ .obj row) → ∀ fault, errors (.shape fault)) :
    (row kind v).Ends answered errors fun row => v = .obj row := by
  cases v with
  | obj row => exact ends_done rfl
  | null | bool _ | num _ | str _ | arr _ => exact ends_fail (hfault nofun _)

theorem exists_rows {β : Type} {R : Row → β → Prop} {items : List Json} {outs : List β}
    (h : List.Forall₂ (fun v out => ∃ row, v = .obj row ∧ R row out) items outs) :
    ∃ rows : List Row, items = rows.map .obj ∧ List.Forall₂ R rows outs := by
  induction h with
  | nil => exact ⟨[], rfl, .nil⟩
  | cons hfirst _ ih =>
      obtain ⟨row, rfl, hrow⟩ := hfirst
      obtain ⟨rows, rfl, hrest⟩ := ih
      exact ⟨row :: rows, rfl, .cons hrow hrest⟩

theorem exists_keyed {α : Type} {K : α → String → Prop} {P : α → Json → Prop} {items : List α}
    {named : Row} (h : List.Forall₂ (fun a m => K a m.1 ∧ P a m.2) items named) :
    ∃ keyed : List (String × α), items = keyed.map (·.2) ∧ (∀ a ∈ keyed, K a.2 a.1) ∧
      List.Forall₂ (fun item m => item.1 = m.1 ∧ P item.2 m.2) keyed named := by
  induction h with
  | nil => exact ⟨[], rfl, fun _ h => absurd h List.not_mem_nil, .nil⟩
  | @cons a m _ _ hfirst _ ih =>
      obtain ⟨hname, hvalue⟩ := hfirst
      obtain ⟨keyed, rfl, hkeys, hrest⟩ := ih
      exact ⟨(m.1, a) :: keyed, rfl, List.forall_mem_cons.mpr ⟨hname, hkeys⟩,
        .cons ⟨rfl, hvalue⟩ hrest⟩

variable {renderRow : Row → Fetching Json} {P : Row → Json → Prop}

section
variable {items : List Json}
  (hrender : ∀ row, .obj row ∈ items → (renderRow row).Ends answered errors (P row))
  (hfault : (∀ rows : List Row, items ≠ rows.map .obj) → ∀ fault, errors (.shape fault))

include hfault in
theorem ends_item {kind : ProviderKind} {v : Json} (hv : v ∈ items) :
    (row kind v).Ends answered errors fun row => v = .obj row := by
  refine ends_row fun hrow => hfault fun rows hrows => ?_
  obtain ⟨row, _, heq⟩ := List.mem_map.mp (hrows ▸ hv)
  exact hrow row heq.symm

include hrender hfault

theorem ends_first {kind : ProviderKind} (hitems : items ≠ []) :
    (first renderRow kind items).Ends answered errors fun v =>
      ∃ row, FirstRow (.arr items) row ∧ P row v := by
  cases items with
  | nil => exact absurd rfl hitems
  | cons v rest =>
      refine (ends_item hfault List.mem_cons_self).bind fun row hrow => ?_
      subst hrow
      exact (hrender row List.mem_cons_self).imp fun out hout => ⟨row, .item row rest, hout⟩

theorem ends_every {kind : ProviderKind} :
    (every renderRow kind items).Ends answered errors fun outs =>
      ∃ rows : List Row, items = rows.map .obj ∧ List.Forall₂ P rows outs := by
  refine (Ends.each fun v hv => ?_).imp fun outs => exists_rows
  refine (ends_item hfault hv).bind fun row hrow => ?_
  exact (hrender row (hrow ▸ hv)).imp fun out hout => ⟨row, hrow, hout⟩

theorem ends_everyKeyed {key : RowKey}
    (hkey : ∀ row e, .obj row ∈ items → key.of row = .error e → errors e) :
    (everyKeyed renderRow key items).Ends answered errors fun named =>
      ∃ rows : List Row, items = rows.map .obj ∧
        List.Forall₂ (fun row m => key.of row = .ok m.1 ∧ P row m.2) rows named := by
  refine (Ends.each fun v hv => ?_).imp fun named => exists_rows
  refine (ends_item hfault hv).bind fun row hrow => ?_
  subst hrow
  refine (ends_ofExcept (fun _ => id) fun e => hkey row e hv).bind fun name hname => ?_
  exact (hrender row hv).bind fun out hout => ends_done ⟨row, rfl, hname, hout⟩

theorem ends_collect {key : Option RowKey}
    (hkey : ∀ k row e, key = some k → .obj row ∈ items → k.of row = .error e → errors e) :
    (collect renderRow key items).Ends answered errors fun collected =>
      ∃ rows : List Row, items = rows.map .obj ∧ Collects P key rows collected := by
  cases key with
  | none =>
      refine (ends_every hrender hfault).bind fun outs houts => ?_
      obtain ⟨rows, hrows, houts⟩ := houts
      exact ends_done ⟨rows, hrows, .list houts⟩
  | some k =>
      refine (ends_everyKeyed hrender hfault fun row e => hkey k row e rfl).bind
        fun named hnamed => ?_
      obtain ⟨rows, hrows, hnamed⟩ := hnamed
      obtain ⟨keyed, rfl, hkeys, hnamed⟩ :=
        exists_keyed (K := fun row name => k.of row = .ok name) hnamed
      exact ends_done ⟨_, hrows, .keyed hkeys (.ofList hnamed)⟩

end

theorem assembles_ofNothing {shape : Provider} {data : Json} (h : data.carriesNothing = true) :
    Assembles P shape data shape.ofNothing := by
  cases shape with
  | value => exact .valueNothing h
  | entity => exact .entityNothing h
  | column => exact .columnNothing h
  | collection key filter =>
      cases key with
      | none => exact .collectionNothing h (.list .nil)
      | some k =>
          exact .collectionNothing h
            (.keyed (fun _ h => absurd h List.not_mem_nil) (IsRecord.ofList .nil))

/-- A provider gives what its data assembles to. Its own errors are those of the rows, the
row key and the filter, and a shape error only when its data is not an array of rows. -/
theorem ends_assemble {data : Json} {shape : Provider}
    (hrender : ∀ row, RowOf data row → (renderRow row).Ends answered errors (P row))
    (hfault : (∀ rows : List Row, data ≠ .arr (rows.map .obj)) → ∀ fault, errors (.shape fault))
    (hkey : ∀ key filter row e, shape = .collection (some key) filter → RowOf data row →
      key.of row = .error e → errors e)
    (hfilter : ∀ key f c e, shape = .collection key (some f) → f c = .error e → errors e) :
    (shape.assemble renderRow data).Ends answered errors (Assembles P shape data) := by
  unfold assemble
  split
  · next h => exact ends_done (assembles_ofNothing h)
  · next hdata =>
      cases data with
      | arr items =>
          -- an empty array carries nothing, so that there is a first row
          have hitems : items ≠ [] := by
            rintro rfl
            exact hdata rfl
          have hrender row (hrow : .obj row ∈ items) := hrender row (.item hrow)
          have hfault (h : ∀ rows : List Row, items ≠ rows.map .obj) :=
            hfault fun rows heq => h rows (Json.arr.inj heq)
          cases shape with
          | value =>
              refine (ends_first hrender hfault hitems).imp fun v hv => ?_
              obtain ⟨row, hrow, hv⟩ := hv
              exact .valueRow hrow hv
          | entity =>
              refine (ends_first hrender hfault hitems).imp fun v hv => ?_
              obtain ⟨row, hrow, hv⟩ := hv
              exact .entityRow hrow hv
          | column =>
              rw [ofData, rows_arr, pure_bind]
              refine (ends_every hrender hfault).bind fun outs houts => ?_
              obtain ⟨rows, rfl, houts⟩ := houts
              exact ends_done (.columnRows houts)
          | collection key filter =>
              have hkey k row e (hk : key = some k) (hrow : .obj row ∈ items) :=
                hkey k filter row e (hk ▸ rfl) (.item hrow)
              rw [ofData, rows_arr, pure_bind]
              refine (ends_collect hrender hfault hkey).bind fun collected hcollected => ?_
              obtain ⟨rows, rfl, hcollected⟩ := hcollected
              cases filter with
              | none => exact ends_done (.collectionRows hcollected (.unfiltered collected))
              | some f =>
                  refine (ends_ofExcept (fun _ => id) fun e => hfilter key f collected e rfl).bind
                    fun out hout => ?_
                  exact ends_done (.collectionRows hcollected (.filtered hout))
      | obj row =>
          cases shape with
          | value =>
              exact (hrender row (.single row)).imp fun v hv => .valueRow (.single row) hv
          | entity =>
              rw [entity_obj]
              exact (hrender row (.single row)).imp fun v hv => .entityRow (.single row) hv
          | column | collection _ _ => exact ends_fail (hfault nofun _)
      | null => exact absurd rfl hdata
      | bool _ | num _ | str _ =>
          cases shape with
          | value => exact ends_done (.valueScalar nofun nofun)
          | entity | column | collection _ _ => exact ends_fail (hfault nofun _)

end Provider

theorem Definition.ends_renderEntries {context : Option Context}
    {entries : List (String × Definition)} {P : Definition → Json → Prop}
    (h : ∀ e ∈ entries, (e.2.render context).Ends answered errors (P e.2)) :
    (renderEntries context entries).Ends answered errors
      (List.Forall₂ (fun e m => e.1 = m.1 ∧ P e.2 m.2) entries) := by
  induction entries with
  | nil => exact ends_done .nil
  | cons e rest ih =>
      obtain ⟨hfirst, hrest⟩ := List.forall_mem_cons.mp h
      refine hfirst.bind fun v hv => (ih hrest).bind fun others hothers => ?_
      exact ends_done (.cons ⟨rfl, hv⟩ hothers)

end
end RowShape
