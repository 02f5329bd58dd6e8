import Mathlib.Data.Set.Finite.Lattice
import RowShape.Proofs.Reading
import RowShape.Proofs.Stepwise

/-!
Where SQL text comes from. A definition that was read from a document holds only texts of
that document, windowed by the pager, and rendering hands them to the client unchanged.
-/

namespace RowShape

namespace Fetching

/-- A computation whose calls, whatever is answered, take their SQL from some texts. -/
def CallsIn (texts : Set String) {α : Type} (x : Fetching α) : Prop :=
  ∀ (answers : Respondent) (past : List Call),
    ∀ call ∈ (x.runAfter answers past).2, call.sql ∈ texts

theorem callsIn_stepwise (texts : Set String) : Stepwise (CallsIn texts) where
  done _ _ _ _ hcall := absurd hcall List.not_mem_nil
  fail _ _ _ _ hcall := absurd hcall List.not_mem_nil
  bind {_ _ x f} hx hf answers past call hcall := by
    have hfirst := hx answers past
    cases hrun : x.runAfter answers past with
    | mk outcome calls =>
        rw [hrun] at hfirst
        cases outcome with
        | error e =>
            rw [runAfter_bind_of_error hrun] at hcall
            exact hfirst call hcall
        | ok a =>
            rw [runAfter_bind_of_ok hrun, List.mem_append] at hcall
            cases hcall with
            | inl hcall => exact hfirst call hcall
            | inr hcall => exact hf a answers _ call hcall

end Fetching

/-- Rendering sends no other SQL than the queries of the definition. -/
theorem Definition.QueriesIn.callsIn_render {texts : Set String} {d : Definition}
    (h : d.QueriesIn texts) (context : Option Context) :
    (d.render context).CallsIn texts := by
  refine (Fetching.callsIn_stepwise texts).render (fun sql hsql params answers past => ?_) h context
  exact List.forall_mem_singleton.mpr hsql

namespace Document

/-- The objects of a document that stand where a definition stands. -/
inductive HasNode : Json → Row → Prop where
  | root (members : Row) : HasNode (.obj members) members
  | child {members node : Row} {m : String × Json} (hm : m ∈ members)
      (hkey : isReserved m.1 = false) (h : HasNode m.2 node) : HasNode (.obj members) node
  | rows {members node : Row} {v : Json} (hv : get? members .definition = some v)
      (h : HasNode v node) : HasNode (.obj members) node

theorem finite_nodes (document : Json) : {node | HasNode document node}.Finite := by
  induction document using Json.induction with
  | null | bool _ | num _ | str _ | arr _ _ =>
      refine Set.finite_empty.subset fun node h => ?_
      cases h
  | obj members ih =>
      have hparts : (⋃ m ∈ {m | m ∈ members}, {node | HasNode m.2 node}).Finite :=
        Set.Finite.biUnion (List.finite_toSet members) ih
      refine ((Set.finite_singleton members).union hparts).subset fun node h => ?_
      cases h with
      | root => exact .inl rfl
      | child hm _ h => exact .inr (Set.mem_biUnion hm h)
      | rows hv h => exact .inr (Set.mem_biUnion (get?_eq_some_mem hv) h)

/-- The SQL texts of a document: what stands under the tag of a provider, as it is or with
the window that this provider asks for. -/
def sqlTexts (pager : Option Pager) (document : Json) : Set String :=
  {text | ∃ node kind sql, HasNode document node ∧
    Tagged node (.provider kind) (.str sql) ∧ ReadsQuery pager node sql text}

section
variable {pager : Option Pager}

theorem ReadsQuery.unique {members : Row} {sql text other : String}
    (h : ReadsQuery pager members sql text) (h' : ReadsQuery pager members sql other) :
    text = other := by
  have hread : readQuery ⟨true, pager⟩ members sql = .ok text := readQuery_eq_ok.mpr h
  rw [readQuery_eq_ok.mpr h'] at hread
  exact (Except.ok.inj hread).symm

/-- A node has one primary tag, so that it adds no more than one text. -/
theorem finite_sqlTexts (pager : Option Pager) (document : Json) :
    (sqlTexts pager document).Finite := by
  have hnode (node : Row) : {text | ∃ kind sql, Tagged node (.provider kind) (.str sql) ∧
      ReadsQuery pager node sql text}.Subsingleton := by
    intro text htext other hother
    obtain ⟨kind, sql, htagged, h⟩ := htext
    obtain ⟨kind', sql', htagged', h'⟩ := hother
    have hsame := htagged.primaries.symm.trans htagged'.primaries
    cases hsame
    exact h.unique h'
  refine ((finite_nodes document).biUnion fun node _ => (hnode node).finite).subset ?_
  intro text htext
  obtain ⟨node, kind, sql, hmem, h⟩ := htext
  exact Set.mem_biUnion hmem ⟨kind, sql, h⟩

theorem sqlTexts_subset {part whole : Json} (h : ∀ node, HasNode part node → HasNode whole node) :
    sqlTexts pager part ⊆ sqlTexts pager whole := by
  intro text htext
  obtain ⟨node, kind, sql, hnode, htext⟩ := htext
  exact ⟨node, kind, sql, h node hnode, htext⟩

end

/-- Reading puts only texts of the document into a definition. -/
theorem Reads.queriesIn {settings : Settings} {context : Option Context} {name : Option String}
    {v : Json} {d : Definition} (h : Reads settings context name v d) :
    d.QueriesIn (sqlTexts settings.pager v) := by
  induction h with
  | scalar _ => exact .scalar _
  | plain child hkeys _ ih =>
      refine .map fun e he => ?_
      obtain ⟨m, hm, rfl⟩ := List.mem_map.mp he
      exact (ih m hm).mono (sqlTexts_subset fun node h => .child hm (hkeys m hm) h)
  | column column => exact .scalar _
  | constant _ => exact .field _
  | field _ _ => exact .field _
  | @provider _ members kind sql _ each _ _ htagged _ hrow _ hquery _ _ ih =>
      refine .provider (fun text heq => ?_) ?_
      · cases heq
        exact ⟨members, kind, sql, .root members, htagged, hquery⟩
      · cases hinner : get? members .definition with
        | none =>
            rw [hrow hinner]
            exact .row
        | some w => exact (ih w hinner).mono (sqlTexts_subset fun node h => .rows hinner h)

/-- No data reaches SQL text: the context of reading, the context of rendering and the
answers of the client choose among finitely many texts that the document and the pager fix. -/
theorem sql_mem_sqlTexts {hasClient : Bool} {pager : Option Pager} {document : Json}
    {readContext : Option Context} {d : Definition}
    (h : readDocument ⟨hasClient, pager⟩ readContext document = .ok d) :
    (sqlTexts pager document).Finite ∧ ∀ (context : Option Context) (answers : Respondent),
      ∀ call ∈ ((d.render context).runAfter answers []).2, call.sql ∈ sqlTexts pager document := by
  refine ⟨finite_sqlTexts pager document, fun context answers => ?_⟩
  have hqueries : d.QueriesIn (sqlTexts pager document) := (readDocument_eq_ok.mp h).queriesIn
  exact hqueries.callsIn_render context answers []

/-- The first news with their authors. -/
def newsListing : Json :=
  .obj [("$collection", .str "SELECT id, authorId FROM news ORDER BY id"), ("$limit", .int 10),
    ("$definition", .obj [("author", .obj [("$value", .str "SELECT name FROM author WHERE id = ?"),
      ("$params", .arr [.obj [("$ref", .str "authorId")]])])])]

def newsListingDefinition : Definition :=
  .provider (.collection none none)
    (.query (Dialect.sqlite.paginate "SELECT id, authorId FROM news ORDER BY id" (some 10) none))
    [] (.map [("author", .provider .value (.query "SELECT name FROM author WHERE id = ?")
      [⟨none, .reference "authorId"⟩] .row)])

theorem sql_mem_sqlTexts_newsListing :
    let pager : Option Pager := some Dialect.sqlite.paginate
    readDocument ⟨true, pager⟩ none newsListing = .ok newsListingDefinition ∧
      (sqlTexts pager newsListing).Finite ∧
      ∀ (context : Option Context) (answers : Respondent),
        ∀ call ∈ ((newsListingDefinition.render context).runAfter answers []).2,
          call.sql ∈ sqlTexts pager newsListing := by
  intro pager
  have hread : readDocument ⟨true, pager⟩ none newsListing = .ok newsListingDefinition := rfl
  exact ⟨hread, sql_mem_sqlTexts hread⟩

end Document

end RowShape
