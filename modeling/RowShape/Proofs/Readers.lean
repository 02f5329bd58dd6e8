import Mathlib.Data.List.Forall2
import RowShape.Document.Reading
import RowShape.Proofs.Basic

/-!
What the readers behind the tags of a document accept and what they yield, one statement
for each of them. A result with several forms is an inductive relation.
-/

namespace RowShape

/-- A value without parts. -/
def Json.IsScalar : Json → Prop
  | .arr _ | .obj _ => False
  | _ => True

namespace Document

theorem here_eq_ok {α : Type} {cause : Cause} {a : α} :
    Fault.here cause = .ok a ↔ False := by
  simp only [Fault.here, reduceCtorEq]

theorem under_eq_ok {α : Type} {key : String} {x : Except Fault α} {a : α} :
    Fault.under key x = .ok a ↔ x = .ok a := by
  cases x <;> simp only [Fault.under, reduceCtorEq]

theorem Tag.text_injective {s t : Tag} (h : s.text = t.text) : s = t := by
  cases s <;> cases t <;> first | rfl | exact absurd h (by decide)

/-- Every key of an object is one of some tags. -/
def KeysWithin (members : Row) (tags : List Tag) : Prop :=
  ∀ m ∈ members, ∃ t ∈ tags, m.1 = t.text

theorem KeysWithin.get?_eq_none {members : Row} {tags : List Tag} (h : KeysWithin members tags)
    {t : Tag} (ht : t ∉ tags) : get? members t = none := by
  rw [get?, Row.get?, List.lookup_eq_none_iff]
  intro m hm
  obtain ⟨s, hs, hkey⟩ := h m hm
  rw [hkey, bne_iff_ne]
  intro heq
  exact ht (Tag.text_injective heq ▸ hs)

theorem get?_eq_some_mem {members : Row} {t : Tag} {v : Json} (h : get? members t = some v) :
    (t.text, v) ∈ members := by
  rw [get?, Row.get?, List.lookup_eq_some_iff] at h
  obtain ⟨before, after, rfl, _⟩ := h
  exact List.mem_append_right before List.mem_cons_self

theorem Tag.isReserved_text (t : Tag) : isReserved t.text = true := by
  cases t <;> decide

theorem KeysWithin.reserved {members : Row} {tags : List Tag} (h : KeysWithin members tags)
    {m : String × Json} (hm : m ∈ members) : isReserved m.1 = true := by
  obtain ⟨t, _, hkey⟩ := h m hm
  rw [hkey]
  exact t.isReserved_text

theorem get?_eq_none_of_plain {members : Row} (hkeys : ∀ m ∈ members, isReserved m.1 = false)
    (t : Tag) : get? members t = none := by
  cases hv : get? members t with
  | none => rfl
  | some v =>
      have hplain := hkeys _ (get?_eq_some_mem hv)
      rw [t.isReserved_text] at hplain
      cases hplain

section
variable {members : Row} {context : Option Context}

theorem expectText_eq_ok {t : Tag} {wanted : Wanted} {v : Json} {s : String} :
    expectText t wanted v = .ok s ↔ v = .str s := by
  cases v with
  | str text => simp only [expectText, Except.ok.injEq, Json.str.injEq]
  | null | bool _ | num _ | arr _ | obj _ => simp only [expectText, here_eq_ok, reduceCtorEq]

theorem count?_eq_ok {t : Tag} {count : Option Nat} :
    count? members t = .ok count ↔ get? members t = count.map fun n => .int n := by
  unfold count?
  split
  · next h => cases count <;> simp [h]
  · next i h =>
      rw [h]
      split
      · next hi =>
          cases count with
          | none => simp
          | some n =>
              simp only [Except.ok.injEq, Option.some.injEq, Option.map_some, Json.int,
                Json.num.injEq, Number.int.injEq]
              omega
      · next hi =>
          simp only [here_eq_ok, false_iff]
          cases count with
          | none => simp
          | some n =>
              simp only [Option.map_some, Option.some.injEq, Json.int, Json.num.injEq,
                Number.int.injEq]
              omega
  · next v hint h =>
      rw [h]
      simp only [here_eq_ok, false_iff]
      cases count with
      | none => simp
      | some n =>
          intro heq
          exact hint n (Option.some.inj heq)

/-- The value of the context under a key, or else the default beside it, or else null. -/
def constantOf (context : Option Context) (members : Row) (key : String) : Json :=
  match context.bind (·.lookup key) with
  | some found => found
  | none => (get? members .default).getD .null

theorem contextValue_eq_ok {v c : Json} :
    contextValue context members v = .ok c ↔
      ∃ key, v = .str key ∧ c = constantOf context members key := by
  simp only [contextValue, Context.lookup?, bind_eq_ok, expectText_eq_ok, constantOf]
  refine exists_congr fun key => and_congr_right fun _ => ?_
  cases context.bind (·.lookup key) <;> simp only [pure_eq_ok]

/-- A parameter: a constant, a reference alone, or what a context object stands for. -/
inductive ReadsArgument (context : Option Context) : Json → Argument → Prop where
  | literal {v : Json} (hv : v.IsScalar) : ReadsArgument context v (.literal v)
  | reference (key : String) :
      ReadsArgument context (.obj [(referenceKey, .str key)]) (.reference key)
  | constant {members : Row} {key : String} (hkeys : KeysWithin members [.context, .default])
      (hkey : get? members .context = some (.str key)) :
      ReadsArgument context (.obj members) (.literal (constantOf context members key))

theorem KeysWithin.get?_referenceKey {tags : List Tag} (h : KeysWithin members tags) :
    Row.get? members referenceKey = none := by
  rw [Row.get?, List.lookup_eq_none_iff]
  intro m hm
  obtain ⟨t, _, hkey⟩ := h m hm
  rw [hkey]
  cases t <;> decide

theorem find?_beside_context_eq_none :
    members.find? (fun m => !(m.1 == Tag.context.text || m.1 == Tag.default.text)) = none ↔
      KeysWithin members [.context, .default] := by
  simp only [List.find?_eq_none, KeysWithin, Bool.not_eq_true', Bool.not_eq_false,
    Bool.or_eq_true, beq_iff_eq, List.mem_cons, List.not_mem_nil, or_false, exists_eq_or_imp,
    exists_eq_left]

private theorem readArgument_obj {a : Argument}
    (h : readArgument context (.obj members) = .ok a) :
    ReadsArgument context (.obj members) a := by
  cases hfound : Row.get? members referenceKey with
  | some found =>
      simp only [readArgument, hfound, ite_not] at h
      split at h
      · next hlength =>
          obtain ⟨⟨name, w⟩, rfl⟩ := List.length_eq_one_iff.mp hlength
          have hname : name = referenceKey ∧ w = found := by
            rw [Row.get?_cons] at hfound
            split at hfound
            · next heq => exact ⟨heq.symm, Option.some.inj hfound⟩
            · cases hfound
          obtain ⟨rfl, rfl⟩ := hname
          split at h
          · cases h
            exact .reference _
          · simp only [here_eq_ok] at h
      · simp only [here_eq_ok] at h
  | none =>
      simp only [readArgument, hfound] at h
      cases hcontext : get? members .context with
      | none => simp only [hcontext, here_eq_ok] at h
      | some v =>
          simp only [hcontext] at h
          split at h
          · simp only [here_eq_ok] at h
          · next hstray =>
              simp only [bind_eq_ok, contextValue_eq_ok, pure_eq_ok] at h
              obtain ⟨c, ⟨key, rfl, rfl⟩, rfl⟩ := h
              exact .constant (find?_beside_context_eq_none.mp hstray) hcontext

theorem readArgument_eq_ok {v : Json} {a : Argument} :
    readArgument context v = .ok a ↔ ReadsArgument context v a := by
  constructor
  · intro h
    cases v with
    | obj members => exact readArgument_obj h
    | arr items => simp only [readArgument, here_eq_ok] at h
    | null | bool _ | num _ | str _ =>
        cases h
        exact .literal trivial
  · intro h
    cases h with
    | literal hv => cases v <;> first | rfl | exact absurd hv id
    | reference key => rfl
    | constant hkeys hkey =>
        simp only [readArgument, hkeys.get?_referenceKey, hkey,
          find?_beside_context_eq_none.mpr hkeys]
        exact bind_eq_ok.mpr ⟨_, contextValue_eq_ok.mpr ⟨_, rfl, rfl⟩, rfl⟩

/-- Parameters by name or by position, each read on its own. -/
inductive ReadsParams (context : Option Context) : Json → List Parameter → Prop where
  | named {members : Row} {params : List Parameter}
      (h : List.Forall₂ (fun m p => p.name = some m.1 ∧ ReadsArgument context m.2 p.value)
        members params) : ReadsParams context (.obj members) params
  | positional {items : List Json} {params : List Parameter}
      (h : List.Forall₂ (fun v p => p.name = none ∧ ReadsArgument context v p.value)
        items params) : ReadsParams context (.arr items) params

theorem readNamed_eq_ok {params : List Parameter} :
    readNamed context members = .ok params ↔
      List.Forall₂ (fun m p => p.name = some m.1 ∧ ReadsArgument context m.2 p.value)
        members params := by
  induction members generalizing params with
  | nil => simp only [readNamed, Except.ok.injEq, List.forall₂_nil_left_iff, eq_comm]
  | cons m rest ih =>
      simp only [readNamed, bind_eq_ok, under_eq_ok, readArgument_eq_ok, ih, pure_eq_ok,
        List.forall₂_cons_left_iff]
      constructor
      · intro h
        obtain ⟨value, hvalue, others, hothers, rfl⟩ := h
        exact ⟨_, _, ⟨rfl, hvalue⟩, hothers, rfl⟩
      · intro h
        obtain ⟨⟨name, value⟩, others, ⟨rfl, hvalue⟩, hothers, rfl⟩ := h
        exact ⟨value, hvalue, others, hothers, rfl⟩

theorem readPositional_eq_ok {items : List Json} {index : Nat} {params : List Parameter} :
    readPositional context index items = .ok params ↔
      List.Forall₂ (fun v p => p.name = none ∧ ReadsArgument context v p.value)
        items params := by
  induction items generalizing index params with
  | nil => simp only [readPositional, Except.ok.injEq, List.forall₂_nil_left_iff, eq_comm]
  | cons v rest ih =>
      simp only [readPositional, bind_eq_ok, under_eq_ok, readArgument_eq_ok, ih, pure_eq_ok,
        List.forall₂_cons_left_iff]
      constructor
      · intro h
        obtain ⟨value, hvalue, others, hothers, rfl⟩ := h
        exact ⟨_, _, ⟨rfl, hvalue⟩, hothers, rfl⟩
      · intro h
        obtain ⟨⟨name, value⟩, others, ⟨rfl, hvalue⟩, hothers, rfl⟩ := h
        exact ⟨value, hvalue, others, hothers, rfl⟩

theorem readParams_eq_ok {v : Json} {params : List Parameter} :
    readParams context v = .ok params ↔ ReadsParams context v params := by
  constructor
  · intro h
    cases v with
    | obj members => exact .named (readNamed_eq_ok.mp h)
    | arr items => exact .positional (readPositional_eq_ok.mp h)
    | null | bool _ | num _ | str _ => simp only [readParams, here_eq_ok] at h
  · intro h
    cases h with
    | named h => exact readNamed_eq_ok.mpr h
    | positional h => exact readPositional_eq_ok.mpr h

/-- The transform of each field kind. -/
inductive ReadsTransform (members : Row) : String → Transform → Prop where
  | boolean : ReadsTransform members "boolean" .boolean
  | integer : ReadsTransform members "integer" .integer
  | number : ReadsTransform members "number" .number
  | json : ReadsTransform members "json" .json
  | datetime : ReadsTransform members "datetime" .datetime
  | plainCsv (h : get? members .delimiter = none) :
      ReadsTransform members "csv" (.csv Transform.defaultDelimiter)
  | csv {delimiter : String} (h : get? members .delimiter = some (.str delimiter)) :
      ReadsTransform members "csv" (.csv delimiter)
  | format {pattern : String} (h : get? members .format = some (.str pattern)) :
      ReadsTransform members "format" (.format ⟨pattern⟩)

theorem readTransform_eq_ok {kind : String} {t : Transform} :
    readTransform members kind = .ok t ↔ ReadsTransform members kind t := by
  constructor
  · intro h
    unfold readTransform at h
    split at h
    · cases h; exact .boolean
    · cases h; exact .integer
    · cases h; exact .number
    · cases h; exact .json
    · cases h; exact .datetime
    · split at h
      · next hnone => cases h; exact .plainCsv hnone
      · next hsome =>
          simp only [bind_eq_ok, expectText_eq_ok, pure_eq_ok] at h
          obtain ⟨delimiter, rfl, rfl⟩ := h
          exact .csv hsome
    · split at h
      · simp only [here_eq_ok] at h
      · next hsome =>
          simp only [bind_eq_ok, expectText_eq_ok, pure_eq_ok] at h
          obtain ⟨pattern, rfl, rfl⟩ := h
          exact .format hsome
    · simp only [here_eq_ok] at h
  · intro h
    cases h with
    | boolean | integer | number | json | datetime => rfl
    | plainCsv h => simp only [readTransform, h]
    | csv h | format h => simp only [readTransform, h]; rfl

/-- A constant, or a column with its transform. The column is named by `$key`, or else by
the key that encloses the field. -/
inductive ReadsField (members : Row) (enclosing : Option String) : Json → Field → Prop where
  | constant {v : Json} (h : get? members .value = some v) :
      ReadsField members enclosing (.str "value") (.constant v)
  | keyed {kind key : String} {t : Transform}
      (hkey : (get? members .key).or (enclosing.map .str) = some (.str key))
      (ht : ReadsTransform members kind t) :
      ReadsField members enclosing (.str kind) (.keyed key t)

theorem readKey_eq_ok {kind : String} {enclosing : Option String} {key : String} :
    readKey members kind enclosing = .ok key ↔
      (get? members .key).or (enclosing.map .str) = some (.str key) := by
  unfold readKey
  cases get? members .key with
  | some v => simp only [expectText_eq_ok, Option.some_or, Option.some.injEq]
  | none =>
      cases enclosing with
      | some name => simp only [Except.ok.injEq, Option.none_or, Option.map_some,
          Option.some.injEq, Json.str.injEq]
      | none => simp only [here_eq_ok, Option.none_or, Option.map_none, reduceCtorEq]

theorem readField_eq_ok {v : Json} {enclosing : Option String} {f : Field} :
    readField members v enclosing = .ok f ↔ ReadsField members enclosing v f := by
  simp only [readField, bind_eq_ok, expectText_eq_ok]
  constructor
  · intro h
    obtain ⟨kind, rfl, h⟩ := h
    split at h
    · next hkind =>
        subst hkind
        split at h
        · simp only [here_eq_ok] at h
        · next hsome =>
            cases h
            exact .constant hsome
    · simp only [bind_eq_ok, readKey_eq_ok, readTransform_eq_ok, pure_eq_ok] at h
      obtain ⟨key, hkey, t, ht, rfl⟩ := h
      exact .keyed hkey ht
  · intro h
    cases h with
    | constant h => exact ⟨"value", rfl, by simp only [↓reduceIte, h, pure_eq_ok]⟩
    | @keyed kind key t hkey ht =>
        have hkind : kind ≠ "value" := by cases ht <;> decide
        refine ⟨kind, rfl, ?_⟩
        simp only [if_neg hkind, bind_eq_ok, readKey_eq_ok, readTransform_eq_ok, pure_eq_ok]
        exact ⟨key, hkey, t, ht, rfl⟩

/-- SQL text as it stands where no window is asked for, and else what the pager makes of it
with the window's bounds. -/
inductive ReadsQuery (pager : Option Pager) (members : Row) (sql : String) : String → Prop where
  | verbatim (hlimit : get? members .limit = none) (hoffset : get? members .offset = none) :
      ReadsQuery pager members sql sql
  | window {paginate : Pager} {limit offset : Option Nat} (hpager : pager = some paginate)
      (hlimit : get? members .limit = limit.map fun n => .int n)
      (hoffset : get? members .offset = offset.map fun n => .int n)
      (hwindow : limit.isSome ∨ offset.isSome) :
      ReadsQuery pager members sql (paginate sql limit offset)

theorem readQuery_eq_ok {settings : Settings} {sql query : String} :
    readQuery settings members sql = .ok query ↔
      ReadsQuery settings.pager members sql query := by
  simp only [readQuery, bind_eq_ok, count?_eq_ok]
  constructor
  · intro h
    obtain ⟨limit, hlimit, offset, hoffset, h⟩ := h
    split at h
    · next hnone =>
        simp only [Bool.and_eq_true, Option.isNone_iff_eq_none] at hnone
        obtain ⟨rfl, rfl⟩ := hnone
        cases h
        exact .verbatim hlimit hoffset
    · next hwindow =>
        split at h
        · simp only [here_eq_ok] at h
        · next paginate hpager =>
            cases h
            refine .window hpager hlimit hoffset ?_
            cases limit <;> cases offset <;> simp_all
  · intro h
    cases h with
    | verbatim hlimit hoffset => exact ⟨none, hlimit, none, hoffset, rfl⟩
    | @window paginate limit offset hpager hlimit hoffset hwindow =>
        refine ⟨limit, hlimit, offset, hoffset, ?_⟩
        have hsome : (limit.isNone && offset.isNone) = false := by
          cases limit <;> cases offset <;> simp_all
        simp only [hsome, Bool.false_eq_true, ↓reduceIte, hpager]
        rfl

/-- What becomes of fetched rows. A collection is keyed by the column under `$key`. -/
inductive ReadsShape (members : Row) : ProviderKind → Provider → Prop where
  | value : ReadsShape members .value .value
  | entity : ReadsShape members .entity .entity
  | column : ReadsShape members .column .column
  | list (h : get? members .key = none) :
      ReadsShape members .collection (.collection none none)
  | keyed {name : String} (h : get? members .key = some (.str name)) :
      ReadsShape members .collection (.collection (some (.column name)) none)

theorem readShape_eq_ok {kind : ProviderKind} {shape : Provider} :
    readShape members kind = .ok shape ↔ ReadsShape members kind shape := by
  constructor
  · intro h
    cases kind with
    | value => cases h; exact .value
    | entity => cases h; exact .entity
    | column => cases h; exact .column
    | collection =>
        simp only [readShape, readRowKey, bind_eq_ok, pure_eq_ok] at h
        obtain ⟨key, hkey, rfl⟩ := h
        split at hkey
        · next hnone => cases hkey; exact .list hnone
        · next hsome =>
            simp only [bind_eq_ok, expectText_eq_ok, pure_eq_ok] at hkey
            obtain ⟨name, rfl, rfl⟩ := hkey
            exact .keyed hsome
  · intro h
    cases h with
    | value | entity | column => rfl
    | list h | keyed h => simp only [readShape, readRowKey, h]; rfl

theorem requireClient_eq_ok {settings : Settings} {t : Tag} {u : Unit} :
    requireClient settings t = .ok u ↔ settings.hasClient = true := by
  unfold requireClient
  cases settings.hasClient <;> simp [here_eq_ok]

theorem readEach_eq_ok {inner : Option (Except Fault Definition)} {each : Definition} :
    readEach inner = .ok each ↔ inner.getD (.ok .row) = .ok each := by
  cases inner with
  | none => rfl
  | some r => simp only [readEach, under_eq_ok, Option.getD_some]

/-- The parameters of a provider, none without `$params`. -/
def ReadsParamsOf (context : Option Context) (members : Row) (params : List Parameter) : Prop :=
  match get? members .params with
  | none => params = []
  | some v => ReadsParams context v params

theorem readParamsOf_eq_ok {params : List Parameter} :
    readParamsOf context members = .ok params ↔ ReadsParamsOf context members params := by
  unfold readParamsOf ReadsParamsOf
  cases get? members .params with
  | none => simp only [Except.ok.injEq, eq_comm]
  | some v => simp only [under_eq_ok, readParams_eq_ok]

theorem readProvider_eq_ok {settings : Settings} {kind : ProviderKind} {v : Json}
    {inner : Option (Except Fault Definition)} {d : Definition} :
    readProvider settings context members kind v inner = .ok d ↔
      ∃ sql each query params shape, v = .str sql ∧ settings.hasClient = true ∧
        inner.getD (.ok .row) = .ok each ∧ ReadsQuery settings.pager members sql query ∧
        ReadsParamsOf context members params ∧ ReadsShape members kind shape ∧
        d = .provider shape (.query query) params each := by
  simp only [readProvider, bind_eq_ok, expectText_eq_ok, requireClient_eq_ok, readEach_eq_ok,
    readQuery_eq_ok, readParamsOf_eq_ok, readShape_eq_ok, pure_eq_ok]
  constructor
  · intro h
    obtain ⟨sql, hsql, _, hclient, each, heach, query, hquery, params, hparams, shape, hshape,
      h⟩ := h
    exact ⟨sql, each, query, params, shape, hsql, hclient, heach, hquery, hparams, hshape, h⟩
  · intro h
    obtain ⟨sql, each, query, params, shape, hsql, hclient, heach, hquery, hparams, hshape, h⟩ := h
    exact ⟨sql, hsql, (), hclient, each, heach, query, hquery, params, hparams, shape, hshape, h⟩

end

end Document

end RowShape
