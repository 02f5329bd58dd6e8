import RowShape.Proofs.Keyed

/-!
How the four kinds of provider agree. Over the same data a column is a collection without
a key, a value provider is an entity unless the data is a scalar, an entity is the first of
a column, and a keyed collection has the items of one without a key when no two rows share
a key.
-/

namespace RowShape

/-- Ends of two runs: related results, or related errors. -/
inductive EndsAlike {α β : Type} (errors : Error → Error → Prop) (results : α → β → Prop) :
    Except Error α → Except Error β → Prop where
  | ok {a : α} {b : β} (h : results a b) : EndsAlike errors results (.ok a) (.ok b)
  | error {e f : Error} (h : errors e f) : EndsAlike errors results (.error e) (.error f)

/-- Runs with the same calls and related ends. -/
structure RunsAlike {α β : Type} (errors : Error → Error → Prop) (results : α → β → Prop)
    (r : Except Error α × List Call) (s : Except Error β × List Call) : Prop where
  calls : r.2 = s.2
  ends : EndsAlike errors results r.1 s.1

namespace Fetching

variable {α β γ δ : Type} {errors : Error → Error → Prop}

/-- The same calls for the same answers, and related ends. -/
def Alike (errors : Error → Error → Prop) (results : α → β → Prop) (x : Fetching α)
    (y : Fetching β) : Prop :=
  ∀ (answers : Respondent) (past : List Call),
    RunsAlike errors results (x.runAfter answers past) (y.runAfter answers past)

theorem alike_done {results : α → β → Prop} {a : α} {b : β} (h : results a b) :
    Alike errors results (done a) (done b) :=
  fun _ _ => ⟨rfl, .ok h⟩

theorem alike_fail {results : α → β → Prop} {e f : Error} (h : errors e f) :
    Alike errors results (fail e) (fail f) :=
  fun _ _ => ⟨rfl, .error h⟩

theorem Alike.refl (herrors : ∀ e, errors e e) (x : Fetching α) : Alike errors Eq x x := by
  intro answers past
  refine ⟨rfl, ?_⟩
  cases (x.runAfter answers past).1 with
  | ok a => exact .ok rfl
  | error e => exact .error (herrors e)

theorem Alike.bind {R : α → β → Prop} {S : γ → δ → Prop} {x : Fetching α} {y : Fetching β}
    {f : α → Fetching γ} {g : β → Fetching δ} (hxy : Alike errors R x y)
    (hfg : ∀ a b, R a b → Alike errors S (f a) (g b)) : Alike errors S (x >>= f) (y >>= g) := by
  intro answers past
  obtain ⟨hcalls, hends⟩ := hxy answers past
  cases hx : x.runAfter answers past with
  | mk outcome first =>
      cases hy : y.runAfter answers past with
      | mk other second =>
          rw [hx, hy] at hcalls hends
          cases hcalls
          cases hends with
          | ok h =>
              rw [runAfter_bind_of_ok hx, runAfter_bind_of_ok hy]
              obtain ⟨hlater, hends⟩ := hfg _ _ h answers (past ++ first)
              exact ⟨congrArg (first ++ ·) hlater, hends⟩
          | error h =>
              rw [runAfter_bind_of_error hx, runAfter_bind_of_error hy]
              exact ⟨rfl, .error h⟩

theorem Alike.each {f g : α → Fetching β} (h : ∀ a, Alike errors Eq (f a) (g a))
    (items : List α) : Alike errors Eq (each f items) (each g items) := by
  induction items with
  | nil => exact alike_done rfl
  | cons a rest ih =>
      refine (h a).bind fun b _ hb => ih.bind fun bs _ hbs => ?_
      rw [hb, hbs]
      exact alike_done rfl

end Fetching

open Fetching

/-- The same error, or shape errors that differ in the provider they name. -/
inductive Renamed (kind other : ProviderKind) : Error → Error → Prop where
  | same (e : Error) : Renamed kind other e e
  | notRows (found : Json.Kind) :
      Renamed kind other (.shape (.notRows kind found)) (.shape (.notRows other found))
  | notRow (found : Json.Kind) :
      Renamed kind other (.shape (.notRow kind found)) (.shape (.notRow other found))

/-- The key and the list of a collection that has both: the items are the same in order. -/
def SameItems (keyed list : Json) : Prop :=
  ∃ members, keyed = .obj members ∧ list = .arr (members.map (·.2))

/-- Data whose rows, if any, have keys of which no two are the same. -/
def DistinctKeys (key : RowKey) (data : Json) : Prop :=
  data.carriesNothing = true ∨
    ∃ (rows : List Row) (names : List String), data = .arr (rows.map .obj) ∧
      List.Forall₂ (fun row name => key.of row = .ok name) rows names ∧ names.Nodup

namespace Provider

variable {renderRow : Row → Fetching Json}

theorem row_alike (kind other : ProviderKind) (v : Json) :
    Alike (Renamed kind other) Eq (row kind v) (row other v) := by
  cases v with
  | obj members => exact alike_done rfl
  | null | bool _ | num _ | str _ | arr _ => exact alike_fail (.notRow _)

theorem rows_alike (kind other : ProviderKind) (data : Json) :
    Alike (Renamed kind other) Eq (rows kind data) (rows other data) := by
  cases data with
  | arr items => exact alike_done rfl
  | null | bool _ | num _ | str _ | obj _ => exact alike_fail (.notRows _)

theorem renderRow_alike (kind other : ProviderKind) (v : Json) :
    Alike (Renamed kind other) Eq (row kind v >>= renderRow) (row other v >>= renderRow) := by
  refine (row_alike kind other v).bind fun members _ hmembers => ?_
  rw [hmembers]
  exact .refl .same _

theorem first_alike (kind other : ProviderKind) (items : List Json) :
    Alike (Renamed kind other) Eq (first renderRow kind items) (first renderRow other items) := by
  cases items with
  | nil => exact alike_done rfl
  | cons v rest => exact renderRow_alike kind other v

theorem every_alike (kind other : ProviderKind) (items : List Json) :
    Alike (Renamed kind other) Eq (every renderRow kind items) (every renderRow other items) :=
  Alike.each (renderRow_alike kind other) items

theorem column_alike_collection (data : Json) :
    Alike (Renamed .column .collection) Eq (column.assemble renderRow data)
      ((collection none none).assemble renderRow data) := by
  unfold assemble
  split
  · exact alike_done rfl
  · refine (rows_alike .column .collection data).bind fun items _ hitems => ?_
    rw [← hitems]
    simp only [collect, LawfulMonad.bind_assoc, pure_bind, Collected.toJson]
    refine (every_alike .column .collection items).bind fun outs _ houts => ?_
    rw [← houts]
    exact alike_done rfl

theorem value_alike_entity {data : Json}
    (hdata : data.kind ∈ [Json.Kind.null, .object, .array]) :
    Alike (Renamed .value .entity) Eq (value.assemble renderRow data)
      (entity.assemble renderRow data) := by
  unfold assemble
  split
  · exact alike_done rfl
  · next hcarries =>
      cases data with
      | null => exact absurd rfl hcarries
      | obj members =>
          rw [entity_obj]
          exact Alike.refl .same (renderRow members)
      | arr items => exact first_alike .value .entity items
      | bool _ | num _ | str _ => simp [Json.kind] at hdata

theorem every_cons (kind : ProviderKind) (v : Json) (rest : List Json) :
    every renderRow kind (v :: rest) = do
      let members ← row kind v
      let out ← renderRow members
      let outs ← every renderRow kind rest
      return out :: outs := by
  simp only [every, each, LawfulMonad.bind_assoc]

/-- With distinct keys the members are the rendered rows, each under its key. -/
theorem everyKeyed_alike_every {key : RowKey} {rows : List Row} {names : List String}
    (h : List.Forall₂ (fun row name => key.of row = .ok name) rows names) :
    Alike Eq (fun named items => named.map (·.1) = names ∧ named.map (·.2) = items)
      (everyKeyed renderRow key (rows.map .obj)) (every renderRow .collection (rows.map .obj)) := by
  induction h with
  | nil => exact alike_done ⟨rfl, rfl⟩
  | @cons row name rows names hkey _ ih =>
      have hname : ofExcept (Except.ok name) = pure name := rfl
      rw [List.map_cons, everyKeyed_cons, hkey, hname, pure_bind, every_cons, row_obj, pure_bind]
      refine (Alike.refl (fun _ => rfl) (renderRow row)).bind fun v _ hv => ih.bind ?_
      rintro named items ⟨hnames, hitems⟩
      refine alike_done ⟨?_, ?_⟩
      · rw [List.map_cons, hnames]
      · rw [List.map_cons, hitems, hv]

theorem keyed_alike_list {key : RowKey} {data : Json} (hkeys : DistinctKeys key data)
    {filter : Option Filter} (hfilter : filter = none ∨ ∃ keep, filter = some (.retain keep)) :
    Alike Eq SameItems ((collection (some key) filter).assemble renderRow data)
      ((collection none filter).assemble renderRow data) := by
  by_cases hdata : data.carriesNothing = true
  · simp only [assemble, hdata, ↓reduceIte]
    exact alike_done ⟨[], rfl, rfl⟩
  · obtain ⟨rows, names, rfl, hnames, hnodup⟩ := hkeys.resolve_left hdata
    simp only [assemble, hdata, Bool.false_eq_true, ↓reduceIte]
    have hcollect : Alike Eq
        (fun c d => ∃ members, c = .keyed members ∧ d = .list (members.map (·.2)))
        (collect renderRow (some key) (rows.map .obj))
        (collect renderRow none (rows.map .obj)) := by
      refine (everyKeyed_alike_every hnames).bind fun named items h => ?_
      obtain ⟨rfl, rfl⟩ := h
      exact alike_done ⟨named, congrArg _ (Row.ofList_of_nodup hnodup), rfl⟩
    simp only [ofData, rows_arr, pure_bind]
    refine hcollect.bind fun c d h => ?_
    obtain ⟨members, rfl, rfl⟩ := h
    rcases hfilter with rfl | ⟨keep, rfl⟩
    · exact alike_done ⟨members, rfl, rfl⟩
    · refine alike_done ⟨members.filter fun m => keep m.2, rfl, ?_⟩
      exact congrArg Json.arr List.filter_map

/-- An entity makes the first item of a column, by the first of the column's calls. -/
theorem entity_of_column {answers : Respondent} {past calls : List Call} {data v : Json}
    (h : (column.assemble renderRow data).runAfter answers past = (.ok v, calls)) :
    ∃ items first, v = .arr items ∧ first <+: calls ∧
      (entity.assemble renderRow data).runAfter answers past =
        (.ok (items.head?.getD .null), first) := by
  by_cases hdata : data.carriesNothing = true
  · simp only [assemble, hdata, ↓reduceIte] at h ⊢
    cases h
    exact ⟨[], [], rfl, List.prefix_rfl, rfl⟩
  · simp only [assemble, hdata, Bool.false_eq_true, ↓reduceIte] at h ⊢
    cases data with
    | arr list =>
        rw [ofData, rows_arr, pure_bind] at h
        obtain ⟨outs, made, after, hevery, hv, rfl⟩ := runAfter_bind_eq_ok.mp h
        cases hv
        cases list with
        | nil => exact absurd rfl hdata
        | cons w others =>
            rw [every_cons] at hevery
            cases w with
            | obj members =>
                rw [row_obj, pure_bind] at hevery
                obtain ⟨out, first, later, hout, hlater, rfl⟩ := runAfter_bind_eq_ok.mp hevery
                obtain ⟨rest, second, after, _, houts, rfl⟩ := runAfter_bind_eq_ok.mp hlater
                cases houts
                refine ⟨out :: rest, first, rfl, by simp, ?_⟩
                rw [ofData, first_obj, hout]
                rfl
            | null | bool _ | num _ | str _ | arr _ => cases hevery
    | null | bool _ | num _ | str _ | obj _ => cases h

end Provider

namespace Definition

/-- A provider that fails before it has data fails alike whatever its kind. -/
theorem runAfter_provider_alike {answers : Respondent} {past : List Call}
    {context : Option Context} {source : Source} {params : List Parameter} {each : Definition}
    {shape other : Provider} {errors : Error → Error → Prop} {results : Json → Json → Prop}
    (herrors : ∀ e, errors e e)
    (h : ∀ bound data fetched, resolveAll context params = .ok bound →
      (source.fetch bound).runAfter answers past = (.ok data, fetched) →
      Alike errors results (shape.assemble (fun row => each.render (some (.ofRow row))) data)
        (other.assemble (fun row => each.render (some (.ofRow row))) data)) :
    RunsAlike errors results
      (((provider shape source params each).render context).runAfter answers past)
      (((provider other source params each).render context).runAfter answers past) := by
  cases hbound : resolveAll context params with
  | error e =>
      rw [render, render, hbound]
      exact ⟨rfl, .error (herrors e)⟩
  | ok bound =>
      cases hdata : (source.fetch bound).runAfter answers past with
      | mk outcome fetched =>
          cases outcome with
          | error e =>
              have hfails (shape : Provider) :
                  ((provider shape source params each).render context).runAfter answers past =
                    (.error e, fetched) := by
                rw [render_provider hbound]
                exact runAfter_bind_of_error hdata _
              rw [hfails, hfails]
              exact ⟨rfl, .error (herrors e)⟩
          | ok data =>
              rw [runAfter_provider hbound hdata, runAfter_provider hbound hdata]
              obtain ⟨hcalls, hends⟩ :=
                h bound data fetched hbound hdata answers (past ++ fetched)
              exact ⟨congrArg (fetched ++ ·) hcalls, hends⟩

theorem exists_data_of_ok {answers : Respondent} {past calls : List Call}
    {context : Option Context} {source : Source} {params : List Parameter} {each : Definition}
    {shape : Provider} {v : Json}
    (h : ((provider shape source params each).render context).runAfter answers past =
      (.ok v, calls)) :
    ∃ bound data fetched made, resolveAll context params = .ok bound ∧
      (source.fetch bound).runAfter answers past = (.ok data, fetched) ∧
      (shape.assemble (fun row => each.render (some (.ofRow row))) data).runAfter answers
        (past ++ fetched) = (.ok v, made) ∧ calls = fetched ++ made := by
  cases hbound : resolveAll context params with
  | error e =>
      rw [render, hbound] at h
      cases h
  | ok bound =>
      rw [render_provider hbound] at h
      obtain ⟨data, fetched, made, hdata, hassembled, hcalls⟩ := runAfter_bind_eq_ok.mp h
      exact ⟨bound, data, fetched, made, rfl, hdata, hassembled, hcalls⟩

/-- The kinds of provider agree over the same source, parameters and rows. -/
theorem providers_agree (context : Option Context) (source : Source) (params : List Parameter)
    (each : Definition) (answers : Respondent) (past : List Call) :
    let run (shape : Provider) :=
      ((provider shape source params each).render context).runAfter answers past
    let Fetches (data : Json) : Prop := ∃ bound fetched, resolveAll context params = .ok bound ∧
      (source.fetch bound).runAfter answers past = (.ok data, fetched)
    RunsAlike (Renamed .column .collection) Eq (run .column) (run (.collection none none)) ∧
    ((∀ data, Fetches data → data.kind ∈ [Json.Kind.null, .object, .array]) →
      RunsAlike (Renamed .value .entity) Eq (run .value) (run .entity)) ∧
    (∀ v calls, run .column = (.ok v, calls) → ∃ items first, v = .arr items ∧
      first <+: calls ∧ run .entity = (.ok (items.head?.getD .null), first)) ∧
    ∀ key, (∀ data, Fetches data → DistinctKeys key data) →
      ∀ filter, (filter = none ∨ ∃ keep, filter = some (.retain keep)) →
        RunsAlike Eq SameItems (run (.collection (some key) filter))
          (run (.collection none filter)) := by
  intro run Fetches
  refine ⟨?_, fun hdata => ?_, fun v calls hcolumn => ?_, fun key hkeys filter hfilter => ?_⟩
  · exact runAfter_provider_alike .same fun _ data _ _ _ => Provider.column_alike_collection data
  · refine runAfter_provider_alike .same fun bound data fetched hbound hfetch => ?_
    exact Provider.value_alike_entity (hdata data ⟨bound, fetched, hbound, hfetch⟩)
  · obtain ⟨bound, data, fetched, made, hbound, hfetch, hassembled, rfl⟩ :=
      exists_data_of_ok hcolumn
    obtain ⟨items, first, rfl, hfirst, hentity⟩ := Provider.entity_of_column hassembled
    refine ⟨items, fetched ++ first, rfl, (List.prefix_append_right_inj fetched).mpr hfirst, ?_⟩
    change (render _ _).runAfter _ _ = _
    rw [runAfter_provider hbound hfetch, hentity]
  · refine runAfter_provider_alike (fun _ => rfl) fun bound data fetched hbound hfetch => ?_
    exact Provider.keyed_alike_list (hkeys data ⟨bound, fetched, hbound, hfetch⟩) hfilter

theorem providers_agree_threeNews :
    let data : Json := .arr (threeNews.map .obj)
    let run (shape : Provider) :=
      ((provider shape (.query "SELECT tag, id FROM news") [] newsBody).render none).runAfter
        threeBodies []
    let body (id : Int) : Call := ⟨"SELECT body FROM news WHERE id = ?", [⟨none, .int id⟩]⟩
    let calls : List Call := [⟨"SELECT tag, id FROM news", []⟩, body 1, body 2, body 3]
    data.kind ∈ [Json.Kind.null, .object, .array] ∧
    RunsAlike (Renamed .value .entity) Eq (run .value) (run .entity) ∧
    run .column = (.ok (.arr [.int 1, .int 2, .int 3]), calls) ∧
    (∃ first, first <+: calls ∧ run .entity = (.ok (.int 1), first)) ∧
    DistinctKeys (.column "id") data ∧
    RunsAlike Eq SameItems (run (.collection (some (.column "id")) (some (.retain Json.truthy))))
      (run (.collection none (some (.retain Json.truthy)))) := by
  intro data run body calls
  obtain ⟨_, hvalue, hcolumn, hkeyed⟩ := providers_agree none (.query "SELECT tag, id FROM news") []
    newsBody threeBodies []
  have hfetched : ∀ other, (∃ bound fetched, resolveAll none [] = .ok bound ∧
      ((Source.query "SELECT tag, id FROM news").fetch bound).runAfter threeBodies [] =
        (.ok other, fetched)) → other = data := by
    rintro other ⟨bound, fetched, hbound, hfetch⟩
    cases hbound
    cases hfetch
    rfl
  have hkind : data.kind ∈ [Json.Kind.null, .object, .array] := by simp [data, Json.kind]
  have hkeys : DistinctKeys (.column "id") data :=
    .inr ⟨threeNews, ["1", "2", "3"], rfl, .cons rfl (.cons rfl (.cons rfl .nil)), by decide⟩
  have hrun : run .column = (.ok (.arr [.int 1, .int 2, .int 3]), calls) := rfl
  obtain ⟨items, first, hitems, hfirst, hentity⟩ := hcolumn _ _ hrun
  cases hitems
  exact ⟨hkind, hvalue fun other h => hfetched other h ▸ hkind, hrun, ⟨first, hfirst, hentity⟩,
    hkeys, hkeyed _ (fun other h => hfetched other h ▸ hkeys) _ (.inr ⟨_, rfl⟩)⟩

end Definition

end RowShape
