import RowShape.Proofs.Assembly
import RowShape.Proofs.Basic

/-!
The shape of the output. What a definition renders conforms to it, whatever the sources
answer: each node says what its output is made of, given that of the nodes below.
-/

namespace RowShape

def InInt64 (i : Int) : Prop := int64Min ≤ i ∧ i ≤ int64Max

instance (i : Int) : Decidable (InInt64 i) := inferInstanceAs (Decidable (_ ∧ _))

theorem Double.inInt64_toInt64 (x : Double) : InInt64 x.toInt64 := by
  rcases x with f | negative | _
  · simp only [toInt64, InInt64, int64Min, int64Max]
    omega
  · cases negative <;> decide
  · decide

theorem inInt64_of_readInt64? {s : List Char} {i : Int} (h : readInt64? s = some i) :
    InInt64 i := by
  simp only [readInt64?] at h
  split at h
  · cases h
  · obtain ⟨hi, heq⟩ := Option.ite_none_right_eq_some.mp h
    exact Option.some.inj heq ▸ hi

theorem inInt64_getD {found : Option Int} {i : Int} (hfound : ∀ j, found = some j → InInt64 j)
    (hi : InInt64 i) : InInt64 (found.getD i) := by
  cases found with
  | none => exact hi
  | some j => exact hfound j rfl

theorem Json.inInt64_toInt64 (v : Json) : InInt64 v.toInt64 := by
  cases v with
  | null => decide
  | bool b => cases b <;> decide
  | num n =>
      refine inInt64_getD (fun j hj => ?_) (Double.inInt64_toInt64 _)
      cases n with
      | int i =>
          obtain ⟨hi, heq⟩ := Option.ite_none_right_eq_some.mp hj
          exact Option.some.inj heq ▸ hi
      | float f => cases hj
  | str s => exact inInt64_getD (fun j => inInt64_of_readInt64?) (Double.inInt64_toInt64 _)
  | arr items | obj members => simp only [toInt64]; split <;> decide

/-- The outputs of a transform for values that are not null. -/
inductive Transform.Renders : Transform → Json → Prop where
  | boolean (b : Bool) : Renders .boolean (.bool b)
  | integer {i : Int} (h : InInt64 i) : Renders .integer (.int i)
  | number (f : Finite) : Renders .number (.num (.float f))
  | csv (delimiter : String) (items : List Json) : Renders (.csv delimiter) (.arr items)
  | json (v : Json) : Renders .json v
  | datetime (s : String) : Renders .datetime (.str s)
  | format (template : Template) (s : String) : Renders (.format template) (.str s)
  | callback {run : Json → Except Error Json} {v out : Json} (h : run v = .ok out) :
      Renders (.callback run) out
  | typed {typeCode : String} {converter : TypeConverter} {v out : Json}
      (h : converter v typeCode = .ok out) : Renders (.typed typeCode converter) out

inductive Field.Renders : Field → Json → Prop where
  | constant (v : Json) : Renders (.constant v) v
  | null (key : String) (transform : Transform) : Renders (.keyed key transform) .null
  | keyed (key : String) {transform : Transform} {v : Json} (h : transform.Renders v) :
      Renders (.keyed key transform) v

theorem Transform.renders_of_apply {t : Transform} {context : Context} {v out : Json}
    (h : t.apply context v = .ok out) : out = .null ∨ t.Renders out := by
  cases t with
  | boolean => cases h; exact .inr (.boolean _)
  | integer => cases h; exact .inr (.integer v.inInt64_toInt64)
  | number =>
      cases h
      cases v.toDouble with
      | finite f => exact .inr (.number f)
      | infinite _ | nan => exact .inl rfl
  | csv delimiter =>
      cases h
      right
      unfold splitText
      repeat' split
      all_goals exact .csv delimiter _
  | json => exact .inr (.json out)
  | datetime =>
      cases h
      unfold Timestamp.normalize
      split
      · exact .inr (.datetime _)
      · exact .inl rfl
  | format template => cases h; exact .inr (.format template _)
  | callback run => exact .inr (.callback h)
  | typed typeCode converter => exact .inr (.typed h)

theorem Field.renders_of_apply {f : Field} {context : Context} {out : Json}
    (h : f.apply context = .ok out) : f.Renders out := by
  cases f with
  | constant v =>
      cases h
      exact .constant out
  | keyed key transform =>
      simp only [apply] at h
      split at h
      · cases h
        exact .null key transform
      · cases h
        exact .null key transform
      · rcases Transform.renders_of_apply h with rfl | hout
        · exact .null key transform
        · exact .keyed key hout

namespace Definition

/-- The outputs of a definition in a context, when a client answers in this way. What rows
and entries become is given by some `P` that is no wider than conforming. -/
inductive Conforms (answered : Call → List Row → Prop) :
    Option Context → Definition → Json → Prop where
  | constant {context : Option Context} {v : Json} (h : ∀ name, v ≠ .str name) :
      Conforms answered context (.scalar v) v
  | text (s : String) : Conforms answered none (.scalar (.str s)) (.str s)
  | column {c : Context} {name : String} {v : Json} (h : c.lookup name = some v) :
      Conforms answered (some c) (.scalar (.str name)) v
  | field {context : Option Context} {f : Field} {v : Json} (h : f.Renders v) :
      Conforms answered context (.field f) v
  | provider {context : Option Context} {shape : Provider} {source : Source}
      {params : List Parameter} {each : Definition} {bound : List Bound} {data v : Json}
      {P : Row → Json → Prop}
      (hP : ∀ row w, P row w → Conforms answered (some (.ofRow row)) each w)
      (hbound : resolveAll context params = .ok bound) (hdata : source.Yields answered bound data)
      (h : Assembles P shape data v) :
      Conforms answered context (.provider shape source params each) v
  | map {context : Option Context} {entries : List (String × Definition)} {members : Row}
      {P : Definition → Json → Prop} (hP : ∀ d w, P d w → Conforms answered context d w)
      (h : IsRecord entries P members) : Conforms answered context (.map entries) (.obj members)
  | row {c : Context} {members : Row} (h : c.row = some members) :
      Conforms answered (some c) .row (.obj members)
  | noRow {context : Option Context} (h : context.bind (·.row) = none) :
      Conforms answered context .row .null

section
variable {answered : Call → List Row → Prop} {context : Option Context} {v : Json}

theorem conforms_map {entries : List (String × Definition)} :
    Conforms answered context (.map entries) v ↔
      ∃ members, v = .obj members ∧ IsRecord entries (Conforms answered context) members := by
  constructor
  · intro h
    cases h with
    | map hP h => exact ⟨_, rfl, h.imp hP⟩
  · intro h
    obtain ⟨members, rfl, h⟩ := h
    exact .map (fun _ _ => id) h

theorem conforms_provider {shape : Provider} {source : Source} {params : List Parameter}
    {each : Definition} :
    Conforms answered context (.provider shape source params each) v ↔
      ∃ bound data, resolveAll context params = .ok bound ∧ source.Yields answered bound data ∧
        Assembles (fun row => each.Conforms answered (some (.ofRow row))) shape data v := by
  constructor
  · intro h
    cases h with
    | provider hP hbound hdata h => exact ⟨_, _, hbound, hdata, h.imp hP⟩
  · intro h
    obtain ⟨bound, data, hbound, hdata, h⟩ := h
    exact .provider (fun _ _ => id) hbound hdata h

end

open Fetching

theorem ends_render (answered : Call → List Row → Prop) (d : Definition)
    (context : Option Context) :
    (d.render context).Ends answered (fun _ => True) (d.Conforms answered context) := by
  induction d using Definition.induction generalizing context with
  | scalar v =>
      cases v with
      | str name =>
          cases context with
          | none => exact ends_done (.text name)
          | some c =>
              simp only [render]
              split
              · next h => exact ends_done (.column h)
              · exact ends_fail trivial
      | null | bool _ | num _ | arr _ | obj _ =>
          exact ends_done (.constant fun _ h => by cases h)
  | field f =>
      exact ends_ofExcept (fun v hv => .field (Field.renders_of_apply hv)) fun _ _ => trivial
  | provider shape source params each ih =>
      refine (ends_ofExcept (fun _ => id) fun _ _ => trivial).bind fun bound hbound => ?_
      refine (Source.ends_fetch fun _ _ _ _ => trivial).bind fun data hdata => ?_
      refine (Provider.ends_assemble (fun row _ => ih (some (.ofRow row))) (fun _ _ => trivial)
        (fun _ _ _ _ _ _ _ => trivial) fun _ _ _ _ _ _ => trivial).imp fun v hv => ?_
      exact conforms_provider.mpr ⟨bound, data, hbound, hdata, hv⟩
  | map entries ih =>
      have hentries := ends_renderEntries fun e he => ih e he context
      refine hentries.bind fun members hmembers => ?_
      exact ends_done (conforms_map.mpr ⟨_, rfl, .ofList hmembers⟩)
  | row =>
      simp only [render]
      split
      · next h =>
          obtain ⟨c, rfl, hrow⟩ := Option.bind_eq_some_iff.mp h
          exact ends_done (.row hrow)
      · next h => exact ends_done (.noRow h)

/-- What a definition renders conforms to it, and so do the members of a keyed collection,
at any depth, unless a filter does more than drop some of them. -/
theorem render_conforms {d : Definition} {context : Option Context} {answers : Respondent}
    {v : Json} {calls : List Call}
    (h : (d.render context).runAfter answers [] = (.ok v, calls)) :
    d.Conforms (Answered answers calls) context v ∧
      ∀ (inner : Option Context) (key : RowKey) (filter : Option Filter) (source : Source)
        (params : List Parameter) (each : Definition) (w : Json),
        (filter = none ∨ ∃ keep, filter = some (.retain keep)) →
        (provider (.collection (some key) filter) source params each).Conforms
          (Answered answers calls) inner w →
        ∃ members, w = .obj members ∧ ∀ m ∈ members, ∃ row, key.of row = .ok m.1 ∧
          each.Conforms (Answered answers calls) (some (.ofRow row)) m.2 := by
  refine ⟨?_, ?_⟩
  · exact ((ends_render (Answered answers calls) d context).outcome h).1 v rfl
  · intro inner key filter source params each w hfilter hw
    obtain ⟨bound, data, _, _, hassembles⟩ := conforms_provider.mp hw
    obtain ⟨members, rfl, hmembers⟩ := hassembles.exists_members hfilter
    refine ⟨members, rfl, fun m hm => ?_⟩
    obtain ⟨row, _, hrow⟩ := hmembers m hm
    exact ⟨row, hrow⟩

/-- How often news were read, under their titles and without those that never were. -/
def viewsByTitle : Definition :=
  .provider (.collection (some (.column "title")) (some (.retain Json.truthy)))
    (.query "SELECT title, views FROM news") [] (.field (.keyed "views" .integer))

/-- Two pieces of news share a title, and the one between them was never read. -/
def repeatedTitle : Respondent := fun _ _ => .ok
  [[("title", .str "Flood"), ("views", .int 12)], [("title", .str "Fire"), ("views", .null)],
    [("title", .str "Flood"), ("views", .bool true)]]

theorem render_conforms_viewsByTitle :
    let answered : Call → List Row → Prop :=
      Answered repeatedTitle [⟨"SELECT title, views FROM news", []⟩]
    let page : Definition := .map [("site", .scalar (.int 3)), ("views", viewsByTitle)]
    let views : Json := .obj [("Flood", .int 1)]
    (page.render none).runAfter repeatedTitle [] = (.ok (.obj [("site", .int 3), ("views", views)]),
        [⟨"SELECT title, views FROM news", []⟩]) ∧
      page.Conforms answered none (.obj [("site", .int 3), ("views", views)]) ∧
      viewsByTitle.Conforms answered none views ∧
      ∃ members, views = .obj members ∧ ∀ m ∈ members, ∃ row,
        (RowKey.column "title").of row = .ok m.1 ∧
        (Definition.field (.keyed "views" .integer)).Conforms answered (some (.ofRow row)) m.2 := by
  intro answered page views
  have hrun : (page.render none).runAfter repeatedTitle [] =
      (.ok (.obj [("site", .int 3), ("views", views)]),
        [⟨"SELECT title, views FROM news", []⟩]) := rfl
  have hviews : (viewsByTitle.render none).runAfter repeatedTitle [] =
      (.ok views, [⟨"SELECT title, views FROM news", []⟩]) := rfl
  obtain ⟨hconforms, hkeyed⟩ := render_conforms hviews
  exact ⟨hrun, (render_conforms hrun).1, hconforms,
    hkeyed none _ _ _ _ _ views (.inr ⟨_, rfl⟩) hconforms⟩

end Definition
end RowShape
