import RowShape.Proofs.Assembly
import RowShape.Proofs.QueryTexts

/-!
What can still go wrong once a document has been read. Rendering then raises no errors of
its own but for names that the document uses and the rows at hand do not answer to; every
other failure is one that the client reports.
-/

namespace RowShape

/-- The names through which rendering may fail. -/
structure Names where
  columns : Set String
  references : Set String
  /-- The query of a keyed collection, with the column that its rows are kept under. -/
  rowKeys : Set (String × String)

structure Names.Within (few many : Names) : Prop where
  columns : few.columns ⊆ many.columns
  references : few.references ⊆ many.references
  rowKeys : few.rowKeys ⊆ many.rowKeys

/-- The errors that are raised by such names, and the rows that a client has answered. -/
inductive Foreseen (names : Names) (answered : Call → List Row → Prop) : Error → Prop where
  | column {name : String} (h : name ∈ names.columns) :
      Foreseen names answered (.unknownKey name)
  | reference {name : String} (h : name ∈ names.references) :
      Foreseen names answered (.reference name)
  | keyMissing {sql column : String} {params : List Bound} {rows : List Row} {row : Row}
      (h : (sql, column) ∈ names.rowKeys) (hrows : answered ⟨sql, params⟩ rows)
      (hrow : row ∈ rows) (hkey : row.get? column = none) :
      Foreseen names answered (.unknownKey column)
  | keyNotScalar {sql column : String} {params : List Bound} {rows : List Row} {row : Row}
      {v : Json} (h : (sql, column) ∈ names.rowKeys) (hrows : answered ⟨sql, params⟩ rows)
      (hrow : row ∈ rows) (hkey : row.get? column = some v)
      (hv : v.kind ∈ [Json.Kind.null, .array, .object]) :
      Foreseen names answered (.shape (.keyNotScalar column v.kind))

def Field.IsTotal (f : Field) : Prop := ∀ context, ∃ v, f.apply context = .ok v

namespace Definition

/-- The fields at all depths of a definition. -/
inductive HasField : Definition → Field → Prop where
  | field (f : Field) : HasField (.field f) f
  | each {shape : Provider} {source : Source} {params : List Parameter} {each : Definition}
      {f : Field} (h : HasField each f) : HasField (.provider shape source params each) f
  | entry {entries : List (String × Definition)} {e : String × Definition} {f : Field}
      (he : e ∈ entries) (h : HasField e.2 f) : HasField (.map entries) f

/-- A definition with total fields, in which only queries fetch, only columns are keys, and
nothing filters. -/
inductive FailsBy (names : Names) : Definition → Prop where
  | scalar {v : Json} (h : ∀ name, v = .str name → name ∈ names.columns) :
      FailsBy names (.scalar v)
  | field {f : Field} (h : f.IsTotal) : FailsBy names (.field f)
  | provider {shape : Provider} {sql : String} {params : List Parameter} {each : Definition}
      (hparams : ∀ p ∈ params, ∀ name, p.value = .reference name → name ∈ names.references)
      (hkey : ∀ key filter, shape = .collection (some key) filter →
        ∃ column, key = .column column ∧ (sql, column) ∈ names.rowKeys)
      (hfilter : ∀ key f, shape ≠ .collection key (some f)) (heach : FailsBy names each) :
      FailsBy names (.provider shape (.query sql) params each)
  | map {entries : List (String × Definition)} (h : ∀ e ∈ entries, FailsBy names e.2) :
      FailsBy names (.map entries)
  | row : FailsBy names .row

variable {names : Names} {d : Definition}

theorem FailsBy.mono {few many : Names} (h : d.FailsBy few) (hwithin : few.Within many) :
    d.FailsBy many := by
  induction h with
  | scalar h => exact .scalar fun name heq => hwithin.columns (h name heq)
  | field h => exact .field h
  | provider hparams hkey hfilter _ ih =>
      refine .provider ?_ ?_ hfilter ih
      · exact fun p hp name heq => hwithin.references (hparams p hp name heq)
      · intro key filter heq
        obtain ⟨column, hcolumn, hmem⟩ := hkey key filter heq
        exact ⟨column, hcolumn, hwithin.rowKeys hmem⟩
  | map _ ih => exact .map ih
  | row => exact .row

theorem FailsBy.isTotal (h : d.FailsBy names) {f : Field} (hf : d.HasField f) : f.IsTotal := by
  induction h with
  | scalar _ | row => cases hf
  | field h => cases hf; exact h
  | provider _ _ _ _ ih => cases hf with | each hf => exact ih hf
  | map _ ih => cases hf with | entry he hf => exact ih _ he hf

end Definition

theorem exists_reference_of_error {context : Option Context} {params : List Parameter}
    {e : Error} (h : resolveAll context params = .error e) :
    ∃ p ∈ params, ∃ name, p.value = .reference name ∧ e = .reference name := by
  induction params with
  | nil => cases h
  | cons p rest ih =>
      rcases bind_eq_error.mp h with hfirst | ⟨v, _, h⟩
      · refine ⟨p, List.mem_cons_self, ?_⟩
        cases hvalue : p.value with
        | literal v =>
            rw [hvalue] at hfirst
            cases hfirst
        | reference name =>
            rw [hvalue, Argument.resolve] at hfirst
            split at hfirst
            · cases hfirst
            · cases hfirst
              exact ⟨name, rfl, rfl⟩
      · rcases bind_eq_error.mp h with hrest | ⟨bound, _, h⟩
        · obtain ⟨q, hq, hname⟩ := ih hrest
          exact ⟨q, List.mem_cons_of_mem p hq, hname⟩
        · exact (pure_eq_error.mp h).elim

theorem RowKey.error_of_column {column : String} {row : Row} {e : Error}
    (h : (RowKey.column column).of row = .error e) :
    row.get? column = none ∧ e = .unknownKey column ∨
      ∃ v : Json, row.get? column = some v ∧ v.kind ∈ [Json.Kind.null, .array, .object] ∧
        e = .shape (.keyNotScalar column v.kind) := by
  cases hkey : row.get? column with
  | none =>
      simp only [of, hkey, Except.error.injEq] at h
      exact .inl ⟨rfl, h.symm⟩
  | some v =>
      right
      cases v with
      | null | arr _ | obj _ =>
          simp only [of, hkey, Except.error.injEq] at h
          exact ⟨_, rfl, by simp [Json.kind], h.symm⟩
      | bool _ | num _ | str _ => simp only [of, hkey, reduceCtorEq] at h

section
open Fetching

variable {names : Names} {answered : Call → List Row → Prop}

/-- Every step of rendering that may fail does so by one of the names. -/
theorem Definition.FailsBy.ends_render {d : Definition} (h : d.FailsBy names)
    (context : Option Context) :
    (d.render context).Ends answered (Foreseen names answered) fun _ => True := by
  induction h generalizing context with
  | @scalar v h =>
      cases v with
      | str name =>
          cases context with
          | none => exact ends_done trivial
          | some c =>
              simp only [render]
              split
              · exact ends_done trivial
              · exact ends_fail (.column (h name rfl))
      | null | bool _ | num _ | arr _ | obj _ => exact ends_done trivial
  | field h =>
      refine ends_ofExcept (fun _ _ => trivial) fun e he => ?_
      obtain ⟨v, hv⟩ := h (context.getD (.ofJson .null))
      rw [hv] at he
      cases he
  | @provider shape sql params each hparams hkey hfilter _ ih =>
      refine (ends_ofExcept (fun _ => id) fun e he => ?_).bind fun bound _ => ?_
      · obtain ⟨p, hp, name, hname, rfl⟩ := exists_reference_of_error he
        exact .reference (hparams p hp name hname)
      · -- a query has no error of its own, and its data are rows
        refine (Source.ends_fetch fun _ h => by cases h).bind fun data hdata => ?_
        obtain ⟨hrows⟩ := hdata
        refine (Provider.ends_assemble (P := fun _ _ => True) (fun r _ => ih (some (.ofRow r)))
          ?_ ?_ ?_).imp fun _ _ => trivial
        · exact fun hdata => absurd rfl (hdata _)
        · intro key filter row e hshape hrow he
          obtain ⟨column, rfl, hmem⟩ := hkey key filter hshape
          obtain ⟨r, hr, heq⟩ := List.mem_map.mp hrow.mem
          cases heq
          rcases RowKey.error_of_column he with ⟨hnone, rfl⟩ | ⟨v, hv, hkind, rfl⟩
          · exact .keyMissing hmem hrows hr hnone
          · exact .keyNotScalar hmem hrows hr hv hkind
        · exact fun key f c e hshape => absurd hshape (hfilter key f)
  | map _ ih =>
      have hentries := ends_renderEntries (P := fun _ _ => True) fun e he => ih e he context
      exact hentries.bind fun _ _ => ends_done trivial
  | row =>
      simp only [render]
      split <;> exact ends_done trivial

end

namespace Document

/-- The texts of a document that stand where a definition stands. -/
inductive HasText : Json → String → Prop where
  | root (text : String) : HasText (.str text) text
  | child {members : Row} {m : String × Json} {text : String} (hm : m ∈ members)
      (hkey : isReserved m.1 = false) (h : HasText m.2 text) : HasText (.obj members) text
  | rows {members : Row} {v : Json} {text : String} (hv : get? members .definition = some v)
      (h : HasText v text) : HasText (.obj members) text

/-- A reference among the parameters of a node, named or not. -/
inductive Refers (node : Row) (name : String) : Prop where
  | named {members : Row} {key : String} (hparams : get? node .params = some (.obj members))
      (h : (key, .obj [(referenceKey, .str name)]) ∈ members) : Refers node name
  | positional {items : List Json} (hparams : get? node .params = some (.arr items))
      (h : .obj [(referenceKey, .str name)] ∈ items) : Refers node name

/-- What a document names: columns as texts or as `$key` alone, references, and the `$key` of
its collections. -/
def names (pager : Option Pager) (document : Json) : Names where
  columns := {name | HasText document name ∨ HasNode document [(Tag.key.text, .str name)]}
  references := {name | ∃ node, HasNode document node ∧ Refers node name}
  rowKeys := {rowKey | ∃ node sql, HasNode document node ∧
    Tagged node (.provider .collection) (.str sql) ∧ ReadsQuery pager node sql rowKey.1 ∧
    get? node .key = some (.str rowKey.2)}

theorem names_within {pager : Option Pager} {part whole : Json}
    (hnode : ∀ node, HasNode part node → HasNode whole node)
    (htext : ∀ text, HasText part text → HasText whole text) :
    (names pager part).Within (names pager whole) where
  columns name h := h.imp (htext name) (hnode _)
  references name h := by
    obtain ⟨node, hpart, h⟩ := h
    exact ⟨node, hnode node hpart, h⟩
  rowKeys rowKey h := by
    obtain ⟨node, sql, hpart, h⟩ := h
    exact ⟨node, sql, hnode node hpart, h⟩

section
variable {members : Row} {context : Option Context}

theorem ReadsArgument.eq_reference {v : Json} {name : String}
    (h : ReadsArgument context v (.reference name)) :
    v = .obj [(referenceKey, .str name)] := by
  cases h
  rfl

theorem exists_mem_of_forall₂ {α β : Type} {R : α → β → Prop} {as : List α} {bs : List β}
    (h : List.Forall₂ R as bs) {b : β} (hb : b ∈ bs) : ∃ a ∈ as, R a b := by
  induction h with
  | nil => exact absurd hb List.not_mem_nil
  | @cons a b' rest _ hfirst _ ih =>
      rcases List.mem_cons.mp hb with rfl | hb
      · exact ⟨a, List.mem_cons_self, hfirst⟩
      · obtain ⟨a', ha', hR⟩ := ih hb
        exact ⟨a', List.mem_cons_of_mem a ha', hR⟩

theorem ReadsParamsOf.refers {params : List Parameter} (h : ReadsParamsOf context members params)
    {p : Parameter} (hp : p ∈ params) {name : String} (hname : p.value = .reference name) :
    Refers members name := by
  unfold ReadsParamsOf at h
  cases hparams : get? members .params with
  | none =>
      rw [hparams] at h
      exact absurd hp (h ▸ List.not_mem_nil)
  | some v =>
      rw [hparams] at h
      cases h with
      | named h =>
          obtain ⟨⟨key, v⟩, hm, _, hvalue⟩ := exists_mem_of_forall₂ h hp
          rw [hname] at hvalue
          cases hvalue.eq_reference
          exact .named hparams hm
      | positional h =>
          obtain ⟨v, hv, _, hvalue⟩ := exists_mem_of_forall₂ h hp
          rw [hname] at hvalue
          cases hvalue.eq_reference
          exact .positional hparams hv

theorem ReadsField.isTotal {enclosing : Option String} {v : Json} {f : Field}
    (h : ReadsField members enclosing v f) : f.IsTotal := by
  intro context
  cases h with
  | constant _ => exact ⟨_, rfl⟩
  | keyed _ ht =>
      simp only [Field.apply]
      split
      · exact ⟨_, rfl⟩
      · exact ⟨_, rfl⟩
      · cases ht <;> exact ⟨_, rfl⟩

end

/-- A document reads as a definition that fails by the names of the document alone. -/
theorem Reads.failsBy {settings : Settings} {context : Option Context} {name : Option String}
    {v : Json} {d : Definition} (h : Reads settings context name v d) :
    d.FailsBy (names settings.pager v) := by
  induction h with
  | scalar _ => exact .scalar fun name heq => .inl (heq ▸ .root name)
  | plain child hkeys _ ih =>
      refine .map fun e he => ?_
      obtain ⟨m, hm, rfl⟩ := List.mem_map.mp he
      exact (ih m hm).mono (names_within (fun node => .child hm (hkeys m hm))
        fun text => .child hm (hkeys m hm))
  | column column =>
      refine .scalar fun name heq => .inr ?_
      cases heq
      exact .root _
  | constant _ => exact .field fun _ => ⟨_, rfl⟩
  | field _ hf => exact .field hf.isTotal
  | @provider _ members kind sql _ each _ shape htagged _ hrow _ hquery hparams hshape ih =>
      refine .provider ?_ ?_ ?_ ?_
      · exact fun p hp name hname => ⟨members, .root members, hparams.refers hp hname⟩
      · intro key filter heq
        subst heq
        cases hshape with
        | keyed hkey => exact ⟨_, rfl, members, sql, .root members, htagged, hquery, hkey⟩
      · intro key f heq
        subst heq
        cases hshape
      · cases hinner : get? members .definition with
        | none =>
            rw [hrow hinner]
            exact .row
        | some w =>
            exact (ih w hinner).mono (names_within (fun node => .rows hinner)
              fun text => .rows hinner)

/-- A definition that was read from a document fails in one of these ways only: by a column,
a reference or a `$key` of the document that the rows at hand do not answer to, or with the
error that the last call was answered with. Its fields never fail. -/
theorem render_fails_foreseen {settings : Settings} {readContext : Option Context}
    {document : Json} {d : Definition}
    (h : readDocument settings readContext document = .ok d) :
    (∀ f, d.HasField f → f.IsTotal) ∧
      ∀ (context : Option Context) (answers : Respondent) (e : Error) (calls : List Call),
        (d.render context).runAfter answers [] = (.error e, calls) →
          Foreseen (names settings.pager document) (Fetching.Answered answers calls) e ∨
          ∃ before call, calls = before ++ [call] ∧ answers before call = .error e := by
  have hfails : d.FailsBy (names settings.pager document) := (readDocument_eq_ok.mp h).failsBy
  refine ⟨fun f => hfails.isTotal, fun context answers e calls hrun => ?_⟩
  exact (Fetching.Ends.outcome (hfails.ends_render context) hrun).2 e rfl

/-- News by their slugs. -/
def newsBySlug : Json :=
  .obj [("$collection", .str "SELECT slug, title FROM news"), ("$key", .str "slug"),
    ("$definition", .obj [("title", .obj [("$field", .str "integer")])])]

/-- A piece of news without a slug. -/
def draftNews : Respondent := fun _ _ => .ok [[("slug", .null), ("title", .str "Draft")]]

theorem render_fails_foreseen_newsBySlug :
    let each : Definition := .map [("title", .field (.keyed "title" .integer))]
    let news : Definition := .provider (.collection (some (.column "slug")) none)
      (.query "SELECT slug, title FROM news") [] each
    let calls : List Call := [⟨"SELECT slug, title FROM news", []⟩]
    let e : Error := .shape (.keyNotScalar "slug" .null)
    readDocument ⟨true, none⟩ none newsBySlug = .ok news ∧
      (∀ f, news.HasField f → f.IsTotal) ∧
      (news.render none).runAfter draftNews [] = (.error e, calls) ∧
      (Foreseen (names none newsBySlug) (Fetching.Answered draftNews calls) e ∨
        ∃ before call, calls = before ++ [call] ∧ draftNews before call = .error e) := by
  intro each news calls e
  have hread : readDocument ⟨true, none⟩ none newsBySlug = .ok news := rfl
  have hrun : (news.render none).runAfter draftNews [] = (.error e, calls) := rfl
  obtain ⟨hfields, hfails⟩ := render_fails_foreseen hread
  exact ⟨hread, hfields, hrun, hfails none draftNews e calls hrun⟩

end Document
end RowShape
