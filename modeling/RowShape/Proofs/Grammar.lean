import RowShape.Proofs.Reading

/-!
The language of documents. A document can be read exactly when it belongs to the language,
and every other one is a configuration error.
-/

namespace RowShape.Document

/-- A text, where the tag is there at all. -/
def TextOrAbsent (members : Row) (t : Tag) : Prop :=
  ∀ v, get? members t = some v → ∃ s, v = .str s

/-- A number of rows, where the tag is there at all. -/
def CountOrAbsent (members : Row) (t : Tag) : Prop :=
  ∀ v, get? members t = some v → ∃ n : Nat, v = .int n

inductive AcceptsParameter : Json → Prop where
  | scalar {v : Json} (hv : v.IsScalar) : AcceptsParameter v
  | reference (key : String) : AcceptsParameter (.obj [(referenceKey, .str key)])
  | context {members : Row} {key : String} (hkeys : KeysWithin members [.context, .default])
      (hkey : get? members .context = some (.str key)) : AcceptsParameter (.obj members)

inductive AcceptsParams : Json → Prop where
  | named {members : Row} (h : ∀ m ∈ members, AcceptsParameter m.2) :
      AcceptsParams (.obj members)
  | positional {items : List Json} (h : ∀ v ∈ items, AcceptsParameter v) :
      AcceptsParams (.arr items)

/-- A column to read: the text under `$key`, or without that tag the enclosing key. -/
def HasColumn (members : Row) (name : Option String) : Prop :=
  TextOrAbsent members .key ∧ (get? members .key = none → name.isSome)

/-- Fields that need no more than a column. -/
def plainKinds : List String := ["boolean", "integer", "number", "json", "datetime"]

inductive AcceptsField (members : Row) (name : Option String) : Prop where
  | value (hfield : get? members .field = some (.str "value"))
      (hkeys : KeysWithin members [.field, .key, .value])
      (hvalue : (get? members .value).isSome)
  | plain {kind : String} (hkind : kind ∈ plainKinds)
      (hfield : get? members .field = some (.str kind))
      (hkeys : KeysWithin members [.field, .key]) (hcolumn : HasColumn members name)
  | csv (hfield : get? members .field = some (.str "csv"))
      (hkeys : KeysWithin members [.field, .key, .delimiter])
      (hcolumn : HasColumn members name) (hdelimiter : TextOrAbsent members .delimiter)
  | format {pattern : String} (hfield : get? members .field = some (.str "format"))
      (hkeys : KeysWithin members [.field, .key, .format]) (hcolumn : HasColumn members name)
      (hformat : get? members .format = some (.str pattern))

def providerTag : ProviderKind → Tag
  | .collection => .collection
  | .entity => .entity
  | .column => .column
  | .value => .value

/-- The tags of a provider beside its own. -/
def providerCompanions : ProviderKind → List Tag
  | .collection => [.params, .definition, .key, .limit, .offset]
  | .column => [.params, .definition, .limit, .offset]
  | .entity | .value => [.params, .definition]

/-- The documents of the language, under the key that encloses them. The tags that a rule
lists are the only keys of its object, so all of them are known and no two of `$collection`,
`$entity`, `$column`, `$value`, `$field` and `$context` stand together, except that a value
field has its constant under `$value`. -/
inductive Accepts (settings : Settings) : Option String → Json → Prop where
  | scalar {name : Option String} {v : Json} (hv : v.IsScalar) : Accepts settings name v
  | plain {name : Option String} {members : Row}
      (hkeys : ∀ m ∈ members, isReserved m.1 = false)
      (hchildren : ∀ m ∈ members, Accepts settings (some m.1) m.2) :
      Accepts settings name (.obj members)
  | column {name : Option String} (column : String) :
      Accepts settings name (.obj [(Tag.key.text, .str column)])
  | context {name : Option String} {members : Row} {key : String}
      (hkeys : KeysWithin members [.context, .default])
      (hkey : get? members .context = some (.str key)) : Accepts settings name (.obj members)
  | field {name : Option String} {members : Row} (h : AcceptsField members name) :
      Accepts settings name (.obj members)
  | provider {name : Option String} {members : Row} {kind : ProviderKind} {sql : String}
      (hkeys : KeysWithin members (providerTag kind :: providerCompanions kind))
      (hsql : get? members (providerTag kind) = some (.str sql))
      (hclient : settings.hasClient = true)
      (hdefinition : ∀ v, get? members .definition = some v → Accepts settings none v)
      (hlimit : CountOrAbsent members .limit) (hoffset : CountOrAbsent members .offset)
      (hpager : (get? members .limit).isSome ∨ (get? members .offset).isSome →
        settings.pager.isSome)
      (hparams : ∀ v, get? members .params = some v → AcceptsParams v)
      (hkey : TextOrAbsent members .key) : Accepts settings name (.obj members)

section
variable {members : Row} {context : Option Context}

theorem exists_readsArgument {v : Json} :
    (∃ a, ReadsArgument context v a) ↔ AcceptsParameter v := by
  constructor
  · intro h
    obtain ⟨a, h⟩ := h
    cases h with
    | literal hv => exact .scalar hv
    | reference key => exact .reference key
    | constant hkeys hkey => exact .context hkeys hkey
  · intro h
    cases h with
    | scalar hv => exact ⟨_, .literal hv⟩
    | reference key => exact ⟨_, .reference key⟩
    | context hkeys hkey => exact ⟨_, .constant hkeys hkey⟩

theorem exists_readsParams {v : Json} :
    (∃ params, ReadsParams context v params) ↔ AcceptsParams v := by
  constructor
  · intro h
    obtain ⟨params, h⟩ := h
    cases h with
    | named h =>
        refine .named fun m hm => ?_
        obtain ⟨p, _, ha⟩ := exists_forall₂.mp ⟨_, h⟩ m hm
        exact exists_readsArgument.mp ⟨_, ha⟩
    | positional h =>
        refine .positional fun v hv => ?_
        obtain ⟨p, _, ha⟩ := exists_forall₂.mp ⟨_, h⟩ v hv
        exact exists_readsArgument.mp ⟨_, ha⟩
  · intro h
    cases h with
    | @named members h =>
        have hone : ∀ m ∈ members, ∃ p : Parameter,
            p.name = some m.1 ∧ ReadsArgument context m.2 p.value := by
          intro m hm
          obtain ⟨a, ha⟩ := exists_readsArgument.mpr (h m hm)
          exact ⟨⟨some m.1, a⟩, rfl, ha⟩
        obtain ⟨params, hparams⟩ := exists_forall₂.mpr hone
        exact ⟨params, .named hparams⟩
    | @positional items h =>
        have hone : ∀ v ∈ items, ∃ p : Parameter,
            p.name = none ∧ ReadsArgument context v p.value := by
          intro v hv
          obtain ⟨a, ha⟩ := exists_readsArgument.mpr (h v hv)
          exact ⟨⟨none, a⟩, rfl, ha⟩
        obtain ⟨params, hparams⟩ := exists_forall₂.mpr hone
        exact ⟨params, .positional hparams⟩

theorem exists_readsParamsOf :
    (∃ params, ReadsParamsOf context members params) ↔
      ∀ v, get? members .params = some v → AcceptsParams v := by
  unfold ReadsParamsOf
  cases get? members .params with
  | none => simp only [exists_eq, reduceCtorEq, false_implies, implies_true]
  | some v => simp only [exists_readsParams, Option.some.injEq, forall_eq']

theorem textOrAbsent_iff {t : Tag} :
    TextOrAbsent members t ↔ get? members t = none ∨ ∃ s, get? members t = some (.str s) := by
  unfold TextOrAbsent
  cases get? members t with
  | none => simp only [reduceCtorEq, false_implies, implies_true, true_or]
  | some v => simp only [Option.some.injEq, forall_eq', reduceCtorEq, false_or]

theorem countOrAbsent_iff {t : Tag} :
    CountOrAbsent members t ↔ ∃ n : Option Nat, get? members t = n.map fun n => .int n := by
  unfold CountOrAbsent
  cases get? members t with
  | none => exact ⟨fun _ => ⟨none, rfl⟩, fun _ v hv => by cases hv⟩
  | some v =>
      simp only [Option.some.injEq, forall_eq']
      constructor
      · intro h
        obtain ⟨n, rfl⟩ := h
        exact ⟨some n, rfl⟩
      · intro h
        obtain ⟨_ | n, hn⟩ := h
        · cases hn
        · exact ⟨n, Option.some.inj hn⟩

theorem exists_column {name : Option String} :
    (∃ key, (get? members .key).or (name.map .str) = some (.str key)) ↔
      HasColumn members name := by
  unfold HasColumn TextOrAbsent
  cases get? members .key with
  | none => cases name <;> simp
  | some v => simp

theorem exists_readsField {name : Option String} :
    (∃ v f, Tagged members .field v ∧ ReadsField members name v f) ↔
      AcceptsField members name := by
  constructor
  · intro h
    obtain ⟨v, f, ⟨hfield, hkeys⟩, hf⟩ := h
    cases hf with
    | constant hvalue => exact .value hfield hkeys (Option.isSome_of_eq_some hvalue)
    | keyed hkey ht =>
        have hcolumn : HasColumn members name := exists_column.mp ⟨_, hkey⟩
        cases ht with
        | boolean | integer | number | json | datetime =>
            exact .plain (by decide) hfield hkeys hcolumn
        | plainCsv hnone => exact .csv hfield hkeys hcolumn (textOrAbsent_iff.mpr (.inl hnone))
        | csv hsome => exact .csv hfield hkeys hcolumn (textOrAbsent_iff.mpr (.inr ⟨_, hsome⟩))
        | format hformat => exact .format hfield hkeys hcolumn hformat
  · intro h
    cases h with
    | value hfield hkeys hvalue =>
        obtain ⟨c, hc⟩ := Option.isSome_iff_exists.mp hvalue
        exact ⟨_, _, ⟨hfield, hkeys⟩, .constant hc⟩
    | @plain kind hkind hfield hkeys hcolumn =>
        obtain ⟨key, hkey⟩ := exists_column.mpr hcolumn
        simp only [plainKinds, List.mem_cons, List.not_mem_nil, or_false] at hkind
        rcases hkind with rfl | rfl | rfl | rfl | rfl
        · exact ⟨_, _, ⟨hfield, hkeys⟩, .keyed hkey .boolean⟩
        · exact ⟨_, _, ⟨hfield, hkeys⟩, .keyed hkey .integer⟩
        · exact ⟨_, _, ⟨hfield, hkeys⟩, .keyed hkey .number⟩
        · exact ⟨_, _, ⟨hfield, hkeys⟩, .keyed hkey .json⟩
        · exact ⟨_, _, ⟨hfield, hkeys⟩, .keyed hkey .datetime⟩
    | csv hfield hkeys hcolumn hdelimiter =>
        obtain ⟨key, hkey⟩ := exists_column.mpr hcolumn
        rcases textOrAbsent_iff.mp hdelimiter with hnone | ⟨_, hsome⟩
        · exact ⟨_, _, ⟨hfield, hkeys⟩, .keyed hkey (.plainCsv hnone)⟩
        · exact ⟨_, _, ⟨hfield, hkeys⟩, .keyed hkey (.csv hsome)⟩
    | format hfield hkeys hcolumn hformat =>
        obtain ⟨key, hkey⟩ := exists_column.mpr hcolumn
        exact ⟨_, _, ⟨hfield, hkeys⟩, .keyed hkey (.format hformat)⟩

theorem exists_readsQuery {pager : Option Pager} {sql : String} :
    (∃ query, ReadsQuery pager members sql query) ↔
      CountOrAbsent members .limit ∧ CountOrAbsent members .offset ∧
        ((get? members .limit).isSome ∨ (get? members .offset).isSome → pager.isSome) := by
  simp only [countOrAbsent_iff]
  constructor
  · intro h
    obtain ⟨query, h⟩ := h
    cases h with
    | verbatim hlimit hoffset =>
        refine ⟨⟨none, hlimit⟩, ⟨none, hoffset⟩, fun hwindow => ?_⟩
        simp only [hlimit, hoffset, Option.isSome_none, Bool.false_eq_true, or_self] at hwindow
    | window hpager hlimit hoffset _ =>
        exact ⟨⟨_, hlimit⟩, ⟨_, hoffset⟩, fun _ => Option.isSome_of_eq_some hpager⟩
  · intro h
    obtain ⟨⟨limit, hlimit⟩, ⟨offset, hoffset⟩, hpager⟩ := h
    simp only [hlimit, hoffset, Option.isSome_map] at hpager
    by_cases hwindow : limit.isSome ∨ offset.isSome
    · obtain ⟨paginate, hpaginate⟩ := Option.isSome_iff_exists.mp (hpager hwindow)
      exact ⟨_, .window hpaginate hlimit hoffset hwindow⟩
    · simp only [not_or, Option.not_isSome_iff_eq_none] at hwindow
      obtain ⟨rfl, rfl⟩ := hwindow
      exact ⟨sql, .verbatim hlimit hoffset⟩

theorem ReadsShape.accepts {kind : ProviderKind} {shape : Provider} {v : Json}
    (h : ReadsShape members kind shape) (htagged : Tagged members (.provider kind) v) :
    TextOrAbsent members .key := by
  have habsent (hnot : Tag.key ∉ (Primary.provider kind).tag :: Primary.companions v
      (.provider kind)) : TextOrAbsent members .key :=
    textOrAbsent_iff.mpr (.inl (htagged.keys.get?_eq_none hnot))
  cases h with
  | value | entity | column => exact habsent (by simp [Primary.tag, Primary.companions])
  | list hnone => exact textOrAbsent_iff.mpr (.inl hnone)
  | keyed hsome => exact textOrAbsent_iff.mpr (.inr ⟨_, hsome⟩)

theorem exists_readsShape {kind : ProviderKind} (h : TextOrAbsent members .key) :
    ∃ shape, ReadsShape members kind shape := by
  cases kind with
  | value => exact ⟨_, .value⟩
  | entity => exact ⟨_, .entity⟩
  | column => exact ⟨_, .column⟩
  | collection =>
      rcases textOrAbsent_iff.mp h with hnone | ⟨_, hsome⟩
      · exact ⟨_, .list hnone⟩
      · exact ⟨_, .keyed hsome⟩

theorem tagged_provider {kind : ProviderKind} {v : Json} :
    Tagged members (.provider kind) v ↔
      KeysWithin members (providerTag kind :: providerCompanions kind) ∧
        get? members (providerTag kind) = some v := by
  cases kind <;> exact ⟨fun h => ⟨h.keys, h.value⟩, fun h => ⟨h.2, h.1⟩⟩

end

section
variable {settings : Settings} {context : Option Context} {name : Option String} {v : Json}

theorem Reads.accepts {d : Definition} (h : Reads settings context name v d) :
    Accepts settings name v := by
  induction h with
  | scalar hv => exact .scalar hv
  | plain _ hkeys _ ih => exact .plain hkeys ih
  | column column => exact .column column
  | constant htagged => exact .context htagged.keys htagged.value
  | field htagged hf => exact .field (exists_readsField.mp ⟨_, _, htagged, hf⟩)
  | provider htagged hclient _ _ hquery hparams hshape ih =>
      obtain ⟨hkeys, hsql⟩ := tagged_provider.mp htagged
      obtain ⟨hlimit, hoffset, hpager⟩ := exists_readsQuery.mp ⟨_, hquery⟩
      exact .provider hkeys hsql hclient ih hlimit hoffset hpager
        (exists_readsParamsOf.mp ⟨_, hparams⟩) (hshape.accepts htagged)

theorem Accepts.reads (h : Accepts settings name v) :
    ∃ d, Reads settings context name v d := by
  induction h with
  | scalar hv => exact ⟨_, .scalar hv⟩
  | plain hkeys _ ih =>
      refine ⟨_, .plain (fun m => (read settings context m.2 (some m.1)).toOption.getD .row)
        hkeys fun m hm => ?_⟩
      obtain ⟨d, hd⟩ := ih m hm
      rw [hd.read]
      exact hd
  | column column => exact ⟨_, .column column⟩
  | context hkeys hkey => exact ⟨_, .constant ⟨hkey, hkeys⟩⟩
  | field h =>
      obtain ⟨_, _, htagged, hf⟩ := exists_readsField.mpr h
      exact ⟨_, .field htagged hf⟩
  | @provider _ members kind sql hkeys hsql hclient _ hlimit hoffset hpager hparams hkey ih =>
      obtain ⟨query, hquery⟩ := exists_readsQuery.mpr ⟨hlimit, hoffset, hpager⟩
      obtain ⟨params, hparams⟩ := exists_readsParamsOf.mpr hparams
      obtain ⟨shape, hshape⟩ := exists_readsShape hkey
      have heach : ∃ each, (get? members .definition = none → each = .row) ∧
          ∀ w, get? members .definition = some w → Reads settings context none w each := by
        cases hw : get? members .definition with
        | none => exact ⟨.row, fun _ => rfl, fun w h => by cases h⟩
        | some w =>
            obtain ⟨each, heach⟩ := ih w hw
            exact ⟨each, fun h => (by cases h), fun _ h => Option.some.inj h ▸ heach⟩
      obtain ⟨each, hrow, heach⟩ := heach
      exact ⟨_, .provider (tagged_provider.mpr ⟨hkeys, hsql⟩) hclient hrow heach hquery hparams
        hshape⟩

end

/-- Documents are read exactly when they belong to the language, and are configuration
errors otherwise. A primary tag is never acted on without its value. -/
theorem readDocument_grammar (settings : Settings) (context : Option Context) (document : Json) :
    ((∃ d, readDocument settings context document = .ok d) ↔ Accepts settings none document) ∧
      ((∃ d, readDocument settings context document = .ok d) ∨
        ∃ detail, readDocument settings context document = .error (.configuration detail)) ∧
      ∀ members, ∀ found ∈ primaries members, get? members found.1.tag = some found.2 := by
  refine ⟨?_, ?_, fun members found => mem_primaries⟩
  · simp only [readDocument_eq_ok]
    exact ⟨fun ⟨_, h⟩ => h.accepts, Accepts.reads⟩
  · unfold readDocument
    cases read settings context document none with
    | ok d => exact .inl ⟨d, rfl⟩
    | error f => exact .inr ⟨f.message, rfl⟩

end RowShape.Document
