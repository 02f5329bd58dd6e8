import Mathlib.Tactic.Choose
import RowShape.Proofs.Grammar

/-!
What the context of reading can change. Whether a document is read, and with which fault
it is refused, does not depend on that context; in what is read it shows only as the
constants that the `$context` objects of the document stand for.
-/

namespace RowShape.Document

/-- Two readings that both succeed, or fail with the same fault. -/
inductive SameFault {α β : Type} : Except Fault α → Except Fault β → Prop where
  | ok (a : α) (b : β) : SameFault (.ok a) (.ok b)
  | error (f : Fault) : SameFault (.error f) (.error f)

namespace SameFault

variable {α β γ δ : Type}

theorem refl (x : Except Fault α) : SameFault x x := by
  cases x with
  | ok a => exact .ok a a
  | error f => exact .error f

theorem under (key : String) {x : Except Fault α} {y : Except Fault β} (h : SameFault x y) :
    SameFault (Fault.under key x) (Fault.under key y) := by
  cases h with
  | ok a b => exact .ok a b
  | error f => exact .error _

theorem bind {x : Except Fault α} {y : Except Fault β} {f : α → Except Fault γ}
    {g : β → Except Fault δ} (hxy : SameFault x y) (hfg : ∀ a b, SameFault (f a) (g b)) :
    SameFault (x >>= f) (y >>= g) := by
  cases hxy with
  | ok a b => exact hfg a b
  | error f => exact .error f

/-- A common first step may pass its result on to both. -/
theorem bind_common (x : Except Fault α) {f : α → Except Fault γ} {g : α → Except Fault δ}
    (hfg : ∀ a, SameFault (f a) (g a)) : SameFault (x >>= f) (x >>= g) := by
  cases x with
  | ok a => exact hfg a
  | error f => exact .error f

end SameFault

section
variable {c₁ c₂ : Option Context}

theorem contextValue_sameFault (members : Row) (v : Json) :
    SameFault (contextValue c₁ members v) (contextValue c₂ members v) := by
  refine .bind_common _ fun key => ?_
  cases Context.lookup? c₁ key <;> cases Context.lookup? c₂ key <;> exact .ok _ _

theorem readArgument_sameFault (v : Json) :
    SameFault (readArgument c₁ v) (readArgument c₂ v) := by
  cases v with
  | arr _ => exact .refl _
  | null | bool _ | num _ | str _ => exact .refl _
  | obj members =>
      simp only [readArgument]
      cases Row.get? members referenceKey with
      | some v => exact .refl _
      | none =>
          cases get? members .context with
          | none => exact .refl _
          | some v =>
              dsimp only
              split
              · exact .refl _
              · exact (contextValue_sameFault members v).bind fun a b => .ok _ _

theorem readNamed_sameFault (members : Row) :
    SameFault (readNamed c₁ members) (readNamed c₂ members) := by
  induction members with
  | nil => exact .refl _
  | cons m rest ih =>
      exact ((readArgument_sameFault m.2).under m.1).bind fun a b => ih.bind fun _ _ => .ok _ _

theorem readPositional_sameFault (index : Nat) (items : List Json) :
    SameFault (readPositional c₁ index items) (readPositional c₂ index items) := by
  induction items generalizing index with
  | nil => exact .refl _
  | cons v rest ih =>
      exact ((readArgument_sameFault v).under _).bind fun a b =>
        (ih (index + 1)).bind fun _ _ => .ok _ _

theorem readParamsOf_sameFault (members : Row) :
    SameFault (readParamsOf c₁ members) (readParamsOf c₂ members) := by
  unfold readParamsOf
  cases get? members .params with
  | none => exact .refl _
  | some v =>
      cases v with
      | obj params => exact (readNamed_sameFault params).under _
      | arr items => exact (readPositional_sameFault 0 items).under _
      | null | bool _ | num _ | str _ => exact .refl _

/-- What stands under `$definition`, if anything does, is read with the same fault. -/
inductive SameInner : Option (Except Fault Definition) → Option (Except Fault Definition) →
    Prop where
  | none : SameInner none none
  | some {x y : Except Fault Definition} (h : SameFault x y) : SameInner (some x) (some y)

theorem readProvider_sameFault (settings : Settings) (members : Row) (kind : ProviderKind)
    (v : Json) {inner₁ inner₂ : Option (Except Fault Definition)} (h : SameInner inner₁ inner₂) :
    SameFault (readProvider settings c₁ members kind v inner₁)
      (readProvider settings c₂ members kind v inner₂) := by
  have hinner : SameFault (readEach inner₁) (readEach inner₂) := by
    cases h with
    | none => exact .refl _
    | some h => exact h.under _
  refine .bind_common _ fun sql => .bind_common _ fun _ => hinner.bind fun _ _ => ?_
  refine .bind_common _ fun query => (readParamsOf_sameFault members).bind fun _ _ => ?_
  exact .bind (.refl _) fun _ _ => .ok _ _

theorem readTagged_sameFault (settings : Settings) (members : Row)
    {inner₁ inner₂ : Option (Except Fault Definition)} (h : SameInner inner₁ inner₂)
    (enclosing : Option String) :
    SameFault (readTagged settings c₁ members inner₁ enclosing)
      (readTagged settings c₂ members inner₂ enclosing) := by
  unfold readTagged
  cases members.find? fun m => !Tag.isKnown m.1 with
  | some unknown => exact .refl _
  | none =>
      rcases primaries members with _ | ⟨⟨p, v⟩, _ | ⟨⟨q, w⟩, more⟩⟩
      · exact .refl _
      · dsimp only
        split
        · exact .refl _
        · cases p with
          | field => exact .refl _
          | context => exact (contextValue_sameFault members v).bind fun _ _ => .ok _ _
          | provider kind => exact readProvider_sameFault settings members kind v h
      · exact .refl _

theorem readChildren_sameFault {f g : Json → Reader} {members : Row}
    (h : ∀ m ∈ members, ∀ name, SameFault (f m.2 name) (g m.2 name)) :
    SameFault (readChildren (members.map fun m => (m.1, f m.2)))
      (readChildren (members.map fun m => (m.1, g m.2))) := by
  induction members with
  | nil => exact .refl _
  | cons m rest ih =>
      obtain ⟨hfirst, hrest⟩ := List.forall_mem_cons.mp h
      exact ((hfirst (some m.1)).under m.1).bind fun _ _ => (ih hrest).bind fun _ _ => .ok _ _

/-- No fault depends on the context, neither whether there is one nor which one it is. -/
theorem read_sameFault (settings : Settings) (c₁ c₂ : Option Context) (v : Json)
    (name : Option String) : SameFault (read settings c₁ v name) (read settings c₂ v name) := by
  induction v using Json.induction generalizing name with
  | null | bool _ | num _ | str _ | arr _ _ => exact .refl _
  | obj members ih =>
      rw [read, read, readers_eq_map, readers_eq_map]
      have hinner : SameInner
          (((members.map fun m => (m.1, read settings c₁ m.2)).lookup
            Tag.definition.text).map fun reader => reader none)
          (((members.map fun m => (m.1, read settings c₂ m.2)).lookup
            Tag.definition.text).map fun reader => reader none) := by
        rw [lookup_map, lookup_map, Option.map_map, Option.map_map]
        cases hw : get? members .definition with
        | none => exact .none
        | some w => exact .some (ih _ (get?_eq_some_mem hw) none)
      unfold readObject
      split
      · exact (readChildren_sameFault ih).bind fun _ _ => .ok _ _
      · split
        · exact .refl _
        · exact readTagged_sameFault settings members hinner name

end

/-- What a parameter is in each context. Only the rule for `$context` objects looks at it. -/
inductive ArgumentScheme : Json → (Option Context → Argument) → Prop where
  | literal {v : Json} (hv : v.IsScalar) : ArgumentScheme v fun _ => .literal v
  | reference (key : String) :
      ArgumentScheme (.obj [(referenceKey, .str key)]) fun _ => .reference key
  | constant {members : Row} {key : String} (hkeys : KeysWithin members [.context, .default])
      (hkey : get? members .context = some (.str key)) :
      ArgumentScheme (.obj members) fun context => .literal (constantOf context members key)

inductive ParamsScheme : Json → (Option Context → List Parameter) → Prop where
  | named {members : Row} (argument : String × Json → Option Context → Argument)
      (h : ∀ m ∈ members, ArgumentScheme m.2 (argument m)) :
      ParamsScheme (.obj members) fun context =>
        members.map fun m => ⟨some m.1, argument m context⟩
  | positional {items : List Json} (argument : Json → Option Context → Argument)
      (h : ∀ v ∈ items, ArgumentScheme v (argument v)) :
      ParamsScheme (.arr items) fun context => items.map fun v => ⟨none, argument v context⟩

/-- What a document is read as in each context. Columns, keys, SQL text and the shape of the
tree are chosen before the context is known; it decides constants, and those only where a
`$context` object stands. -/
inductive Scheme (settings : Settings) :
    Option String → Json → (Option Context → Definition) → Prop where
  | scalar {name : Option String} {v : Json} (hv : v.IsScalar) :
      Scheme settings name v fun _ => .scalar v
  | plain {name : Option String} {members : Row}
      (child : String × Json → Option Context → Definition)
      (hkeys : ∀ m ∈ members, isReserved m.1 = false)
      (hchild : ∀ m ∈ members, Scheme settings (some m.1) m.2 (child m)) :
      Scheme settings name (.obj members) fun context =>
        .map (members.map fun m => (m.1, child m context))
  | column {name : Option String} (column : String) :
      Scheme settings name (.obj [(Tag.key.text, .str column)]) fun _ => .scalar (.str column)
  | constant {name : Option String} {members : Row} {key : String}
      (htagged : Tagged members .context (.str key)) :
      Scheme settings name (.obj members) fun context =>
        .field (.constant (constantOf context members key))
  | field {name : Option String} {members : Row} {v : Json} {f : Field}
      (htagged : Tagged members .field v) (hf : ReadsField members name v f) :
      Scheme settings name (.obj members) fun _ => .field f
  | provider {name : Option String} {members : Row} {kind : ProviderKind} {sql query : String}
      {each : Option Context → Definition} {params : Option Context → List Parameter}
      {shape : Provider} (htagged : Tagged members (.provider kind) (.str sql))
      (hclient : settings.hasClient = true)
      (hrow : get? members .definition = none → each = fun _ => .row)
      (heach : ∀ v, get? members .definition = some v → Scheme settings none v each)
      (hquery : ReadsQuery settings.pager members sql query)
      (hnone : get? members .params = none → params = fun _ => [])
      (hparams : ∀ v, get? members .params = some v → ParamsScheme v params)
      (hshape : ReadsShape members kind shape) :
      Scheme settings name (.obj members) fun context =>
        .provider shape (.query query) (params context) (each context)

section
variable {context : Option Context}

theorem ArgumentScheme.reads {v : Json} {argument : Option Context → Argument}
    (h : ArgumentScheme v argument) : ReadsArgument context v (argument context) := by
  cases h with
  | literal hv => exact .literal hv
  | reference key => exact .reference key
  | constant hkeys hkey => exact .constant hkeys hkey

theorem ReadsArgument.scheme {v : Json} {a : Argument} (h : ReadsArgument context v a) :
    ∃ argument, ArgumentScheme v argument := by
  cases h with
  | literal hv => exact ⟨_, .literal hv⟩
  | reference key => exact ⟨_, .reference key⟩
  | constant hkeys hkey => exact ⟨_, .constant hkeys hkey⟩

theorem ParamsScheme.reads {v : Json} {params : Option Context → List Parameter}
    (h : ParamsScheme v params) : ReadsParams context v (params context) := by
  cases h with
  | named argument h =>
      refine .named (List.forall₂_map_right_iff.mpr (List.forall₂_same.mpr fun m hm => ?_))
      exact ⟨rfl, (h m hm).reads⟩
  | positional argument h =>
      refine .positional (List.forall₂_map_right_iff.mpr (List.forall₂_same.mpr fun v hv => ?_))
      exact ⟨rfl, (h v hv).reads⟩

instance : Inhabited Argument := ⟨.literal .null⟩

instance : Inhabited Definition := ⟨.row⟩

theorem ReadsParams.scheme {v : Json} {params : List Parameter}
    (h : ReadsParams context v params) : ∃ params, ParamsScheme v params := by
  cases h with
  | @named members _ h =>
      have hone : ∀ m ∈ members, ∃ argument, ArgumentScheme m.2 argument := by
        intro m hm
        obtain ⟨p, _, hp⟩ := exists_forall₂.mp ⟨_, h⟩ m hm
        exact hp.scheme
      choose! argument hargument using hone
      exact ⟨_, .named argument hargument⟩
  | @positional items _ h =>
      have hone : ∀ v ∈ items, ∃ argument, ArgumentScheme v argument := by
        intro v hv
        obtain ⟨p, _, hp⟩ := exists_forall₂.mp ⟨_, h⟩ v hv
        exact hp.scheme
      choose! argument hargument using hone
      exact ⟨_, .positional argument hargument⟩

/-- What a tag reads as, or a value of one's own choice where the tag is absent. -/
theorem exists_of_option {α β : Type} {tag : Option α} {P : α → β → Prop} (z : β)
    (h : ∀ a, tag = some a → ∃ b, P a b) :
    ∃ b, (tag = none → b = z) ∧ ∀ a, tag = some a → P a b := by
  cases tag with
  | none => exact ⟨z, fun _ => rfl, nofun⟩
  | some a =>
      obtain ⟨b, hb⟩ := h a rfl
      refine ⟨b, nofun, fun a' ha => ?_⟩
      cases ha
      exact hb

variable {settings : Settings} {name : Option String} {v : Json}

theorem Scheme.reads {tree : Option Context → Definition} (h : Scheme settings name v tree)
    (context : Option Context) : Reads settings context name v (tree context) := by
  induction h with
  | scalar hv => exact .scalar hv
  | plain child hkeys _ ih => exact .plain (child · context) hkeys ih
  | column column => exact .column column
  | constant htagged => exact .constant htagged
  | field htagged hf => exact .field htagged hf
  | @provider _ members _ _ _ each params _ htagged hclient hrow _ hquery hnone hparams hshape ih =>
      have hread : ReadsParamsOf context members (params context) := by
        unfold ReadsParamsOf
        cases hv : get? members .params with
        | none => rw [hnone hv]
        | some v => exact (hparams v hv).reads
      exact .provider htagged hclient (fun h => by rw [hrow h]) ih hquery hread hshape

theorem Reads.scheme {d : Definition} (h : Reads settings context name v d) :
    ∃ tree, Scheme settings name v tree := by
  induction h with
  | scalar hv => exact ⟨_, .scalar hv⟩
  | plain _ hkeys _ ih =>
      choose! child hchild using ih
      exact ⟨_, .plain child hkeys hchild⟩
  | column column => exact ⟨_, .column column⟩
  | constant htagged => exact ⟨_, .constant htagged⟩
  | field htagged hf => exact ⟨_, .field htagged hf⟩
  | @provider _ members _ _ _ _ _ _ htagged hclient _ _ hquery hparams hshape ih =>
      have harguments : ∀ w, get? members .params = some w → ∃ params, ParamsScheme w params := by
        intro w hw
        rw [ReadsParamsOf, hw] at hparams
        exact hparams.scheme
      obtain ⟨each, hrow, heach⟩ := exists_of_option (fun _ => .row) ih
      obtain ⟨params, hnone, hparams⟩ := exists_of_option (fun _ => []) harguments
      exact ⟨_, .provider htagged hclient hrow heach hquery hnone hparams hshape⟩

end

/-- The context of reading fills in constants and does nothing else: a document is refused
with one message in all contexts, or it is read in all of them, each time as the same scheme
has it. -/
theorem readDocument_scheme (settings : Settings) (document : Json) :
    (∃ detail, ∀ context,
      readDocument settings context document = .error (.configuration detail)) ∨
    ∃ tree, Scheme settings none document tree ∧
      ∀ context, readDocument settings context document = .ok (tree context) := by
  cases hread : read settings none document none with
  | error f =>
      refine .inl ⟨f.message, fun context => ?_⟩
      have hsame := read_sameFault settings none context document none
      rw [hread] at hsame
      rw [readDocument]
      generalize read settings context document none = outcome at hsame
      cases hsame
      rfl
  | ok d =>
      obtain ⟨tree, htree⟩ := (reads_of_read hread).scheme
      exact .inr ⟨tree, htree, fun context => readDocument_eq_ok.mpr (htree.reads context)⟩

/-- A present value stands where the context is asked for it, as a field and as a parameter,
although it has the form of a provider; so does a present null. Without a context the field
has its default and the parameter is null. -/
theorem readDocument_scheme_present :
    let document : Json := .obj
      [("author", .obj [("$context", .str "author"), ("$default", .str "nobody")]),
        ("news", .obj [("$column", .str "SELECT title FROM news WHERE author = ?"),
          ("$params", .arr [.obj [("$context", .str "author")]])])]
    let provider : Json := .obj [("$value", .str "DELETE FROM author")]
    let filled (author argument : Json) : Definition := .map
      [("author", .field (.constant author)),
        ("news", .provider .column (.query "SELECT title FROM news WHERE author = ?")
          [⟨none, .literal argument⟩] .row)]
    ∃ tree, Scheme ⟨true, none⟩ none document tree ∧
      tree (some (.ofRow [("author", provider)])) = filled provider provider ∧
      tree (some (.ofRow [("author", .null)])) = filled .null .null ∧
      tree none = filled (.str "nobody") .null := by
  intro document provider filled
  have hpresent : readDocument ⟨true, none⟩ (some (.ofRow [("author", provider)])) document =
      .ok (filled provider provider) := rfl
  have hnull : readDocument ⟨true, none⟩ (some (.ofRow [("author", .null)])) document =
      .ok (filled .null .null) := rfl
  have habsent : readDocument ⟨true, none⟩ none document =
      .ok (filled (.str "nobody") .null) := rfl
  rcases readDocument_scheme ⟨true, none⟩ document with ⟨_, hrefused⟩ | ⟨tree, htree, hread⟩
  · rw [hrefused] at habsent
    cases habsent
  · rw [hread] at hpresent hnull habsent
    exact ⟨tree, htree, Except.ok.inj hpresent, Except.ok.inj hnull, Except.ok.inj habsent⟩

end RowShape.Document
