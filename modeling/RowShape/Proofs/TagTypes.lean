import RowShape.Proofs.Grammar
import RowShape.Proofs.QueryTexts

/-!
The types of tags. In a document that is read, every tag of every node holds a value of its
declared type, but for one: whatever stands under the `$key` of a value field is never looked
at.
-/

namespace RowShape.Document

/-- The declared type of a tag's value. Beside `$field`, `$value` is a constant and may be
anything, and so may a default; the value of `$definition` is a node of its own. -/
def Tag.Admits (node : Row) (v : Json) : Tag → Prop
  | collection | entity | column | field | context | key | delimiter | format => ∃ s, v = .str s
  | value => (get? node .field).isSome ∨ ∃ s, v = .str s
  | limit | offset => ∃ n : Nat, v = .int n
  | params => (∃ members, v = .obj members) ∨ ∃ items, v = .arr items
  | definition | default => True

def WellTyped (node : Row) : Prop := ∀ t v, get? node t = some v → t.Admits node v

section
variable {node : Row} {tags : List Tag}

/-- Only the tags that a node may carry need to be looked at. -/
theorem KeysWithin.wellTyped (h : KeysWithin node tags)
    (htags : ∀ t ∈ tags, ∀ v, get? node t = some v → t.Admits node v) : WellTyped node := by
  intro t v hv
  by_cases ht : t ∈ tags
  · exact htags t ht v hv
  · rw [h.get?_eq_none ht] at hv
    cases hv

theorem keysWithin_column (column : String) :
    KeysWithin [(Tag.key.text, .str column)] [.key] := by
  intro m hm
  cases List.mem_singleton.mp hm
  exact ⟨.key, List.mem_singleton_self _, rfl⟩

theorem AcceptsParams.isContainer {v : Json} (h : AcceptsParams v) :
    (∃ members, v = .obj members) ∨ ∃ items, v = .arr items := by
  cases h with
  | named _ => exact .inl ⟨_, rfl⟩
  | positional _ => exact .inr ⟨_, rfl⟩

theorem textOrAbsent_of_text {t : Tag} {s : String} (h : get? node t = some (.str s)) :
    TextOrAbsent node t :=
  textOrAbsent_iff.mpr (.inr ⟨s, h⟩)

/-- A value field is the one node whose `$key` need not be a text. -/
theorem AcceptsField.wellTyped {name : Option String} (h : AcceptsField node name)
    (hkey : get? node .field = some (.str "value") → TextOrAbsent node .key) :
    WellTyped node := by
  cases h with
  | value hfield hkeys _ =>
      have hconstant : ∀ v, get? node .value = some v → Tag.value.Admits node v :=
        fun v _ => .inl (Option.isSome_of_eq_some hfield)
      apply hkeys.wellTyped
      rw [List.forall_mem_cons, List.forall_mem_cons, List.forall_mem_singleton]
      exact ⟨textOrAbsent_of_text hfield, hkey hfield, hconstant⟩
  | plain _ hfield hkeys hcolumn =>
      apply hkeys.wellTyped
      rw [List.forall_mem_cons, List.forall_mem_singleton]
      exact ⟨textOrAbsent_of_text hfield, hcolumn.1⟩
  | csv hfield hkeys hcolumn hdelimiter =>
      apply hkeys.wellTyped
      rw [List.forall_mem_cons, List.forall_mem_cons, List.forall_mem_singleton]
      exact ⟨textOrAbsent_of_text hfield, hcolumn.1, hdelimiter⟩
  | format hfield hkeys hcolumn hformat =>
      apply hkeys.wellTyped
      rw [List.forall_mem_cons, List.forall_mem_cons, List.forall_mem_singleton]
      exact ⟨textOrAbsent_of_text hfield, hcolumn.1, textOrAbsent_of_text hformat⟩

variable {settings : Settings} {name : Option String}

theorem Accepts.wellTyped (h : Accepts settings name (.obj node))
    (hkey : get? node .field = some (.str "value") → TextOrAbsent node .key) :
    WellTyped node := by
  cases h with
  | scalar hv => exact hv.elim
  | plain hkeys _ =>
      intro t v hv
      rw [get?_eq_none_of_plain hkeys t] at hv
      cases hv
  | column column =>
      apply (keysWithin_column column).wellTyped
      rw [List.forall_mem_singleton]
      exact textOrAbsent_of_text rfl
  | context hkeys hkey =>
      apply hkeys.wellTyped
      rw [List.forall_mem_cons, List.forall_mem_singleton]
      exact ⟨textOrAbsent_of_text hkey, fun _ _ => trivial⟩
  | field h => exact h.wellTyped hkey
  | @provider _ _ kind _ hkeys hsql _ _ hlimit hoffset _ hparams hcolumn =>
      have hsource : ∀ v, get? node (providerTag kind) = some v →
          (providerTag kind).Admits node v := by
        intro v hv
        obtain ⟨s, hs⟩ := textOrAbsent_of_text hsql v hv
        cases kind with
        | value => exact .inr ⟨s, hs⟩
        | collection | entity | column => exact ⟨s, hs⟩
      have hcompanions : ∀ t ∈ [Tag.params, .definition, .key, .limit, .offset], ∀ v,
          get? node t = some v → t.Admits node v := by
        simp only [List.forall_mem_cons]
        exact ⟨fun v hv => (hparams v hv).isContainer, fun _ _ => trivial, hcolumn, hlimit,
          hoffset, List.forall_mem_nil _⟩
      apply hkeys.wellTyped
      rw [List.forall_mem_cons]
      refine ⟨hsource, fun t ht => hcompanions t ?_⟩
      cases kind <;> exact List.Sublist.subset (by decide) ht

/-- What stands below an object is of the language. -/
structure AcceptsParts (settings : Settings) (node : Row) : Prop where
  children : ∀ m ∈ node, isReserved m.1 = false → ∃ inner, Accepts settings inner m.2
  rows : ∀ v, get? node .definition = some v → Accepts settings none v

theorem KeysWithin.parts (hkeys : KeysWithin node tags)
    (hrows : ∀ v, get? node .definition = some v → Accepts settings none v) :
    AcceptsParts settings node := by
  refine ⟨fun m hm hplain => ?_, hrows⟩
  rw [hkeys.reserved hm] at hplain
  cases hplain

theorem KeysWithin.parts_of_leaf (hkeys : KeysWithin node tags) (hleaf : Tag.definition ∉ tags) :
    AcceptsParts settings node := by
  refine hkeys.parts fun v hv => ?_
  rw [hkeys.get?_eq_none hleaf] at hv
  cases hv

theorem Accepts.parts (h : Accepts settings name (.obj node)) : AcceptsParts settings node := by
  cases h with
  | scalar hv => exact hv.elim
  | plain hkeys hchildren =>
      refine ⟨fun m hm _ => ⟨some m.1, hchildren m hm⟩, fun v hv => ?_⟩
      rw [get?_eq_none_of_plain hkeys] at hv
      cases hv
  | column column => exact (keysWithin_column column).parts_of_leaf (by decide)
  | context hkeys _ => exact hkeys.parts_of_leaf (by decide)
  | field h =>
      cases h with
      | value _ hkeys | plain _ _ hkeys | csv _ hkeys | format _ hkeys =>
          exact hkeys.parts_of_leaf (by decide)
  | provider hkeys _ _ hrows => exact hkeys.parts hrows

/-- Every node of a document of the language is itself of the language. -/
theorem Accepts.of_hasNode {document : Json} (h : HasNode document node)
    (haccepts : Accepts settings name document) : ∃ inner, Accepts settings inner (.obj node) := by
  induction h generalizing name with
  | root members => exact ⟨name, haccepts⟩
  | child hm hplain _ ih =>
      obtain ⟨inner, hchild⟩ := haccepts.parts.children _ hm hplain
      exact ih hchild
  | rows hv _ ih => exact ih (haccepts.parts.rows _ hv)

end

/-- A node of a document that is read has a value of another type under a tag only if it is a
value field and the tag is `$key`, and there every value is accepted. -/
theorem readDocument_wellTyped (settings : Settings) (context : Option Context) :
    (∀ document d, readDocument settings context document = .ok d →
      ∀ node, HasNode document node →
        (WellTyped node ↔ (get? node .field = some (.str "value") → TextOrAbsent node .key))) ∧
    ∀ node constant, Tagged node .field (.str "value") → get? node .value = some constant →
      readDocument settings context (.obj node) = .ok (.field (.constant constant)) := by
  constructor
  · intro document d h node hnode
    have haccepts : Accepts settings none document := (readDocument_eq_ok.mp h).accepts
    obtain ⟨inner, hinner⟩ := haccepts.of_hasNode hnode
    exact ⟨fun htyped _ v hv => htyped .key v hv, hinner.wellTyped⟩
  · intro node constant htagged hconstant
    exact readDocument_eq_ok.mpr (.field htagged (.constant hconstant))

/-- A constant that names a column, as other fields do, but by a number. -/
def numberedConstant : Row :=
  [("$field", .str "value"), ("$value", .str "news"), ("$key", .int 5)]

def kindOfNews : Json :=
  .obj [("$entity", .str "SELECT id FROM news"), ("$params", .arr []),
    ("$definition", .obj [("id", .str "id"), ("kind", .obj numberedConstant)])]

/-- The provider is typed as declared and the constant below it is not. -/
theorem readDocument_wellTyped_kindOfNews :
    (∃ d, readDocument ⟨true, none⟩ none kindOfNews = .ok d) ∧
      (∃ node, kindOfNews = .obj node ∧ WellTyped node) ∧
      HasNode kindOfNews numberedConstant ∧ ¬ WellTyped numberedConstant ∧
      Tagged numberedConstant .field (.str "value") ∧
      readDocument ⟨true, none⟩ none (.obj numberedConstant) =
        .ok (.field (.constant (.str "news"))) := by
  obtain ⟨hnodes, hconstants⟩ := readDocument_wellTyped ⟨true, none⟩ none
  have hread : readDocument ⟨true, none⟩ none kindOfNews = .ok (.provider .entity
      (.query "SELECT id FROM news") [] (.map [("id", .scalar (.str "id")),
        ("kind", .field (.constant (.str "news")))])) := rfl
  have hnode : HasNode kindOfNews numberedConstant :=
    .rows rfl (.child (List.mem_cons_of_mem _ List.mem_cons_self) rfl (.root _))
  have htagged : Tagged numberedConstant .field (.str "value") :=
    ⟨rfl, find?_stray_eq_none.mp rfl⟩
  refine ⟨⟨_, hread⟩, ⟨_, rfl, ?_⟩, hnode, ?_, htagged, hconstants _ _ htagged rfl⟩
  · exact (hnodes _ _ hread _ (.root _)).mpr fun hfield => by cases hfield
  · intro htyped
    obtain ⟨s, hs⟩ := (hnodes _ _ hread _ hnode).mp htyped rfl _ rfl
    cases hs

/-- A number under the `$key` of a value field is accepted, which the same number under that of
an integer field is not. -/
theorem readDocument_numberedKey :
    readDocument ⟨true, none⟩ none (.obj numberedConstant) =
        .ok (.field (.constant (.str "news"))) ∧
      get? numberedConstant .key = some (.int 5) ∧ (¬ ∃ s, Json.int 5 = .str s) ∧
      readDocument ⟨true, none⟩ none (.obj [("$field", .str "integer"), ("$key", .int 5)]) =
        .error (.configuration "'$key' must be a column name, found number") := by
  refine ⟨rfl, rfl, fun h => ?_, rfl⟩
  obtain ⟨s, hs⟩ := h
  cases hs

end RowShape.Document
