import RowShape.Proofs.Readers

/-!
The reader of documents as a relation, with one rule for each kind of node. Two readings
of a document are compared by induction on its rules.
-/

namespace RowShape.Document

section
variable {members : Row} {context : Option Context}

theorem mem_primaries {p : Primary} {v : Json} (h : (p, v) ∈ primaries members) :
    get? members p.tag = some v := by
  obtain ⟨q, _, hq⟩ := List.mem_filterMap.mp h
  split at hq
  · cases hq
  · obtain ⟨w, hw, heq⟩ := Option.map_eq_some_iff.mp hq
    cases heq
    exact hw

/-- An object with the primary tag `p` over `v`, and nothing beside but companions of it. -/
structure Tagged (members : Row) (p : Primary) (v : Json) : Prop where
  value : get? members p.tag = some v
  keys : KeysWithin members (p.tag :: p.companions v)

theorem KeysWithin.find?_unknown {tags : List Tag} (h : KeysWithin members tags) :
    members.find? (fun m => !Tag.isKnown m.1) = none := by
  rw [List.find?_eq_none]
  intro m hm
  obtain ⟨t, _, hkey⟩ := h m hm
  rw [hkey]
  cases t <;> decide

theorem find?_stray_eq_none {p : Primary} {v : Json} :
    members.find? (fun m => m.1 != p.tag.text &&
        !(p.companions v).any fun t => t.text == m.1) = none ↔
      KeysWithin members (p.tag :: p.companions v) := by
  simp only [List.find?_eq_none, KeysWithin, Bool.and_eq_true, bne_iff_ne, ne_eq,
    Bool.not_eq_true', List.any_eq_false, beq_iff_eq, List.mem_cons, exists_eq_or_imp]
  refine forall₂_congr fun m _ => ?_
  constructor
  · intro h
    by_cases hkey : m.1 = p.tag.text
    · exact .inl hkey
    · by_contra hnone
      refine h ⟨hkey, fun t ht heq => hnone (.inr ⟨t, ht, heq.symm⟩)⟩
  · intro hkeys hstray
    obtain ⟨hne, hall⟩ := hstray
    rcases hkeys with hkey | ⟨t, ht, heq⟩
    · exact hne hkey
    · exact hall t ht heq.symm

/-- No primary tag is a companion, except that a value field may carry `$value`. -/
theorem Primary.tag_mem_companions {p q : Primary} {v : Json} (h : q.tag ∈ p.companions v) :
    p = .field ∧ q = .provider .value := by
  cases p with
  | provider kind =>
      cases kind <;> rcases q with (_ | _ | _ | _) | _ | _ <;> simp [companions, tag] at h
  | context => rcases q with (_ | _ | _ | _) | _ | _ <;> simp [companions, tag] at h
  | field =>
      refine ⟨rfl, ?_⟩
      simp only [companions] at h
      split at h <;> rcases q with (_ | _ | _ | _) | _ | _ <;> simp [tag] at h ⊢

theorem Primary.tag_injective {p q : Primary} (h : p.tag = q.tag) : p = q := by
  rcases p with (_ | _ | _ | _) | _ | _ <;> rcases q with (_ | _ | _ | _) | _ | _ <;>
    first | rfl | cases h

theorem Tagged.get?_eq_none {p q : Primary} {v : Json} (h : Tagged members p v) (hne : q ≠ p)
    (hvalue : ¬ (p = .field ∧ q = .provider .value)) : get? members q.tag = none := by
  apply h.keys.get?_eq_none
  intro hmem
  rcases List.mem_cons.mp hmem with heq | hcompanion
  · exact hne (Primary.tag_injective heq)
  · exact hvalue (Primary.tag_mem_companions hcompanion)

theorem Tagged.primaries {p : Primary} {v : Json} (h : Tagged members p v) :
    primaries members = [(p, v)] := by
  have hfound : ∀ q, (if q = Primary.provider .value ∧ (get? members .field).isSome then none
      else (get? members q.tag).map (q, ·)) = if q = p then some (p, v) else none := by
    intro q
    by_cases hq : q = p
    · subst hq
      have hbeside : ¬ (q = .provider .value ∧ (get? members .field).isSome) := by
        intro hboth
        obtain ⟨rfl, hsome⟩ := hboth
        have hnone : get? members .field = none :=
          h.get?_eq_none (q := .field) (by decide) (by decide)
        rw [hnone] at hsome
        cases hsome
      simp only [if_neg hbeside, h.value, Option.map_some, ↓reduceIte]
    · rw [if_neg hq]
      by_cases hvalue : p = .field ∧ q = .provider .value
      · obtain ⟨rfl, rfl⟩ := hvalue
        have hfield : get? members .field = some v := h.value
        rw [if_pos ⟨rfl, by rw [hfield]; rfl⟩]
      · rw [h.get?_eq_none hq hvalue, Option.map_none, ite_self]
  unfold Document.primaries
  simp only [hfound]
  rcases p with (_ | _ | _ | _) | _ | _ <;> rfl

variable {settings : Settings} {inner : Option (Except Fault Definition)}
  {enclosing : Option String} {d : Definition}

/-- With one primary tag and nothing stray beside it, that tag decides. -/
theorem Tagged.readTagged_eq {p : Primary} {v : Json} (h : Tagged members p v) :
    readTagged settings context members inner enclosing =
      match p with
      | .field => do return .field (← readField members v enclosing)
      | .context => do return .field (.constant (← contextValue context members v))
      | .provider kind => readProvider settings context members kind v inner := by
  simp only [readTagged, h.keys.find?_unknown, h.primaries, find?_stray_eq_none.mpr h.keys]
  cases p <;> rfl

theorem column_or_tagged (h : readTagged settings context members inner enclosing = .ok d) :
    (∃ column, members = [(Tag.key.text, .str column)] ∧ d = .scalar (.str column)) ∨
      ∃ p v, Tagged members p v := by
  unfold readTagged at h
  split at h
  · simp only [here_eq_ok] at h
  · split at h
    · simp only [here_eq_ok] at h
    · left
      split at h
      · split at h
        · next hkey =>
            cases h
            obtain ⟨v, hv⟩ := Option.isSome_iff_exists.mp hkey
            cases List.mem_singleton.mp (get?_eq_some_mem hv)
            exact ⟨_, rfl, rfl⟩
        · simp only [here_eq_ok] at h
      · split at h <;> simp only [here_eq_ok] at h
      · simp only [here_eq_ok] at h
    · next p v hprimaries =>
        right
        split at h
        · simp only [here_eq_ok] at h
        · next hstray =>
            have hvalue : get? members p.tag = some v :=
              mem_primaries (hprimaries ▸ List.mem_singleton_self _)
            exact ⟨p, v, hvalue, find?_stray_eq_none.mp hstray⟩

/-- What an object of reserved keys reads as: a column under `$key` alone, or else the node
of its one primary tag. -/
theorem readTagged_eq_ok :
    readTagged settings context members inner enclosing = .ok d ↔
      (∃ column, members = [(Tag.key.text, .str column)] ∧ d = .scalar (.str column)) ∨
      (∃ key, Tagged members .context (.str key) ∧
        d = .field (.constant (constantOf context members key))) ∨
      (∃ v f, Tagged members .field v ∧ ReadsField members enclosing v f ∧ d = .field f) ∨
      ∃ kind v, Tagged members (.provider kind) v ∧
        readProvider settings context members kind v inner = .ok d := by
  constructor
  · intro h
    rcases column_or_tagged h with hcolumn | ⟨p, v, htagged⟩
    · exact .inl hcolumn
    · rw [htagged.readTagged_eq] at h
      cases p with
      | context =>
          simp only [bind_eq_ok, contextValue_eq_ok, pure_eq_ok] at h
          obtain ⟨c, ⟨key, rfl, rfl⟩, rfl⟩ := h
          exact .inr (.inl ⟨key, htagged, rfl⟩)
      | field =>
          simp only [bind_eq_ok, readField_eq_ok, pure_eq_ok] at h
          obtain ⟨f, hf, rfl⟩ := h
          exact .inr (.inr (.inl ⟨v, f, htagged, hf, rfl⟩))
      | provider kind => exact .inr (.inr (.inr ⟨kind, v, htagged, h⟩))
  · intro h
    rcases h with ⟨column, rfl, rfl⟩ | ⟨key, htagged, rfl⟩ | ⟨v, f, htagged, hf, rfl⟩ |
      ⟨kind, v, htagged, h⟩
    · rfl
    · simp only [htagged.readTagged_eq, bind_eq_ok, contextValue_eq_ok, pure_eq_ok]
      exact ⟨_, ⟨key, rfl, rfl⟩, rfl⟩
    · simp only [htagged.readTagged_eq, bind_eq_ok, readField_eq_ok, pure_eq_ok]
      exact ⟨f, hf, rfl⟩
    · rw [htagged.readTagged_eq]
      exact h

/-- The children of a plain object are read one by one, each under its own key. -/
theorem readChildren_eq_ok {f : Json → Reader} {entries : List (String × Definition)} :
    readChildren (members.map fun m => (m.1, f m.2)) = .ok entries ↔
      ∃ child : String × Json → Definition, (∀ m ∈ members, f m.2 (some m.1) = .ok (child m)) ∧
        entries = members.map fun m => (m.1, child m) := by
  constructor
  · intro h
    refine ⟨fun m => (f m.2 (some m.1)).toOption.getD .row, ?_⟩
    induction members generalizing entries with
    | nil => cases h; exact ⟨fun _ hm => absurd hm List.not_mem_nil, rfl⟩
    | cons m rest ih =>
        simp only [List.map_cons, readChildren, bind_eq_ok, under_eq_ok, pure_eq_ok] at h
        obtain ⟨d, hd, others, hothers, rfl⟩ := h
        obtain ⟨hrest, rfl⟩ := ih hothers
        refine ⟨List.forall_mem_cons.mpr ⟨?_, hrest⟩, ?_⟩
        · simp only [hd, Except.toOption, Option.getD_some]
        · simp only [List.map_cons, hd, Except.toOption, Option.getD_some]
  · intro h
    obtain ⟨child, hchild, rfl⟩ := h
    induction members with
    | nil => rfl
    | cons m rest ih =>
        obtain ⟨hfirst, hrest⟩ := List.forall_mem_cons.mp hchild
        simp only [List.map_cons, readChildren, hfirst, ih hrest]
        rfl

section
variable {readers : List (String × Reader)}

theorem readObject_plain (hkeys : ∀ m ∈ members, isReserved m.1 = false) :
    readObject settings context members readers enclosing =
      (do return .map (← readChildren readers)) := by
  have hany : members.any (fun m => isReserved m.1) = false :=
    List.any_eq_false.mpr fun m hm => Bool.not_eq_true _ ▸ hkeys m hm
  simp only [readObject, hany, Bool.not_false, ↓reduceIte]

theorem readObject_tagged (hany : ∃ m ∈ members, isReserved m.1 = true)
    (hkeys : ∀ m ∈ members, isReserved m.1 = true) :
    readObject settings context members readers enclosing =
      readTagged settings context members
        ((readers.lookup Tag.definition.text).map fun reader => reader none) enclosing := by
  have hplain : members.find? (fun m => !isReserved m.1) = none := by
    simpa only [List.find?_eq_none, Bool.not_eq_true', Bool.not_eq_false] using hkeys
  simp only [readObject, List.any_eq_true.mpr hany, Bool.not_true, Bool.false_eq_true, ↓reduceIte,
    hplain]

/-- Reserved and other keys are never mixed. -/
theorem plain_or_tagged (h : readObject settings context members readers enclosing = .ok d) :
    (∀ m ∈ members, isReserved m.1 = false) ∨
      (∃ m ∈ members, isReserved m.1 = true) ∧ ∀ m ∈ members, isReserved m.1 = true := by
  unfold readObject at h
  split at h
  · next hany =>
      left
      simpa only [Bool.not_eq_true', List.any_eq_false, Bool.not_eq_true] using hany
  · next hany =>
      right
      refine ⟨by simpa only [Bool.not_eq_true', Bool.not_eq_false, List.any_eq_true] using hany, ?_⟩
      split at h
      · simp only [here_eq_ok] at h
      · next hplain =>
          simpa only [List.find?_eq_none, Bool.not_eq_true', Bool.not_eq_false] using hplain

end

end

theorem readers_eq_map (settings : Settings) (context : Option Context) (members : Row) :
    readers settings context members = members.map fun m => (m.1, read settings context m.2) := by
  induction members with
  | nil => rfl
  | cons m rest ih => rw [readers, ih, List.map_cons]

theorem lookup_map {α : Type} (members : Row) (f : Json → α) (t : Tag) :
    (members.map fun m => (m.1, f m.2)).lookup t.text = (get? members t).map f := by
  induction members with
  | nil => rfl
  | cons m rest ih =>
      obtain ⟨name, v⟩ := m
      simp only [List.map_cons, get?, Row.get?, List.lookup_cons]
      cases t.text == name with
      | true => rfl
      | false => exact ih

/-- The reader of documents as a relation: what each kind of node reads as, given the key
that encloses it. -/
inductive Reads (settings : Settings) (context : Option Context) :
    Option String → Json → Definition → Prop where
  | scalar {name : Option String} {v : Json} (hv : v.IsScalar) :
      Reads settings context name v (.scalar v)
  | plain {name : Option String} {members : Row} (child : String × Json → Definition)
      (hkeys : ∀ m ∈ members, isReserved m.1 = false)
      (hchild : ∀ m ∈ members, Reads settings context (some m.1) m.2 (child m)) :
      Reads settings context name (.obj members) (.map (members.map fun m => (m.1, child m)))
  | column {name : Option String} (column : String) :
      Reads settings context name (.obj [(Tag.key.text, .str column)]) (.scalar (.str column))
  | constant {name : Option String} {members : Row} {key : String}
      (htagged : Tagged members .context (.str key)) :
      Reads settings context name (.obj members)
        (.field (.constant (constantOf context members key)))
  | field {name : Option String} {members : Row} {v : Json} {f : Field}
      (htagged : Tagged members .field v) (hf : ReadsField members name v f) :
      Reads settings context name (.obj members) (.field f)
  | provider {name : Option String} {members : Row} {kind : ProviderKind} {sql query : String}
      {each : Definition} {params : List Parameter} {shape : Provider}
      (htagged : Tagged members (.provider kind) (.str sql))
      (hclient : settings.hasClient = true)
      (hrow : get? members .definition = none → each = .row)
      (heach : ∀ v, get? members .definition = some v → Reads settings context none v each)
      (hquery : ReadsQuery settings.pager members sql query)
      (hparams : ReadsParamsOf context members params)
      (hshape : ReadsShape members kind shape) :
      Reads settings context name (.obj members) (.provider shape (.query query) params each)

private theorem Tagged.reserved {members : Row} {p : Primary} {v : Json}
    (h : Tagged members p v) : (∃ m ∈ members, isReserved m.1 = true) ∧
      ∀ m ∈ members, isReserved m.1 = true := by
  have hall : ∀ m ∈ members, isReserved m.1 = true := fun _ hm => h.keys.reserved hm
  exact ⟨⟨_, get?_eq_some_mem h.value, hall _ (get?_eq_some_mem h.value)⟩, hall⟩

section
variable {settings : Settings} {context : Option Context} {name : Option String}

/-- Rows are rendered by what `$definition` holds, which stands under no key of its own. -/
private theorem inner_eq_ok {members : Row} {each : Definition} :
    (((readers settings context members).lookup Tag.definition.text).map
        fun reader => reader none).getD (.ok .row) = .ok each ↔
      (get? members .definition = none → each = .row) ∧
        ∀ w, get? members .definition = some w → read settings context w none = .ok each := by
  rw [readers_eq_map, lookup_map, Option.map_map]
  cases get? members .definition with
  | none => simp [eq_comm]
  | some w => simp

theorem reads_of_read {v : Json} {d : Definition} (h : read settings context v name = .ok d) :
    Reads settings context name v d := by
  induction v using Json.induction generalizing name d with
  | null | bool _ | num _ | str _ =>
      cases h
      exact .scalar trivial
  | arr items _ => simp only [read, here_eq_ok] at h
  | obj members ih =>
      rw [read] at h
      rcases plain_or_tagged h with hkeys | ⟨hany, hkeys⟩
      · rw [readObject_plain hkeys, readers_eq_map, bind_eq_ok] at h
        obtain ⟨entries, hentries, hd⟩ := h
        obtain ⟨child, hchild, rfl⟩ := readChildren_eq_ok.mp hentries
        cases pure_eq_ok.mp hd
        exact .plain child hkeys fun m hm => ih m hm (hchild m hm)
      · rw [readObject_tagged hany hkeys] at h
        rcases readTagged_eq_ok.mp h with ⟨column, rfl, rfl⟩ | ⟨key, htagged, rfl⟩ |
          ⟨v, f, htagged, hf, rfl⟩ | ⟨kind, v, htagged, h⟩
        · exact .column column
        · exact .constant htagged
        · exact .field htagged hf
        · obtain ⟨sql, each, query, params, shape, rfl, hclient, hinner, hquery, hparams, hshape,
            rfl⟩ := readProvider_eq_ok.mp h
          obtain ⟨hrow, heach⟩ := inner_eq_ok.mp hinner
          exact .provider htagged hclient hrow
            (fun w hw => ih _ (get?_eq_some_mem hw) (heach w hw)) hquery hparams hshape

theorem Reads.read {v : Json} {d : Definition} (h : Reads settings context name v d) :
    read settings context v name = .ok d := by
  induction h with
  | @scalar name v hv => cases v <;> first | rfl | exact hv.elim
  | plain child hkeys _ ih =>
      rw [Document.read, readObject_plain hkeys, readers_eq_map, bind_eq_ok]
      exact ⟨_, readChildren_eq_ok.mpr ⟨child, ih, rfl⟩, rfl⟩
  | column column =>
      have hkey : isReserved Tag.key.text = true := by decide
      rw [Document.read, readObject_tagged ⟨_, List.mem_singleton_self _, hkey⟩
        (List.forall_mem_singleton.mpr hkey)]
      exact readTagged_eq_ok.mpr (.inl ⟨column, rfl, rfl⟩)
  | constant htagged =>
      rw [Document.read, readObject_tagged htagged.reserved.1 htagged.reserved.2]
      exact readTagged_eq_ok.mpr (.inr (.inl ⟨_, htagged, rfl⟩))
  | field htagged hf =>
      rw [Document.read, readObject_tagged htagged.reserved.1 htagged.reserved.2]
      exact readTagged_eq_ok.mpr (.inr (.inr (.inl ⟨_, _, htagged, hf, rfl⟩)))
  | provider htagged hclient hrow _ hquery hparams hshape ih =>
      rw [Document.read, readObject_tagged htagged.reserved.1 htagged.reserved.2]
      refine readTagged_eq_ok.mpr (.inr (.inr (.inr ⟨_, _, htagged, ?_⟩)))
      exact readProvider_eq_ok.mpr ⟨_, _, _, _, _, rfl, hclient, inner_eq_ok.mpr ⟨hrow, ih⟩,
        hquery, hparams, hshape, rfl⟩

theorem read_eq_ok {v : Json} {d : Definition} :
    read settings context v name = .ok d ↔ Reads settings context name v d :=
  ⟨reads_of_read, Reads.read⟩

theorem readDocument_eq_ok {document : Json} {d : Definition} :
    readDocument settings context document = .ok d ↔ Reads settings context none document d := by
  rw [← read_eq_ok, readDocument]
  cases read settings context document none with
  | error f => simp only [Except.mapError, reduceCtorEq]
  | ok d => simp only [Except.mapError, Except.ok.injEq]

end

end RowShape.Document
