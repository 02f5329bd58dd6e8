import RowShape.Proofs.Reading
import RowShape.Proofs.Rows

/-!
The order of tags. Which definition a document is read as does not depend on the order in
which the tags of its nodes are written, nor on that of the keys of its parameters; no more
does whether it is read at all.
-/

namespace RowShape.Document

/-- A parameter with its keys in another order. -/
inductive ArgumentReordered : Json → Json → Prop where
  | same (v : Json) : ArgumentReordered v v
  | keys {members other : Row} (hnames : (members.map (·.1)).Nodup) (h : members.Perm other) :
      ArgumentReordered (.obj members) (.obj other)

/-- Parameters each of which may have its keys in another order. -/
inductive ParamsReordered : Json → Json → Prop where
  | same (v : Json) : ParamsReordered v v
  | named {members other : Row}
      (h : List.Forall₂ (fun m n => m.1 = n.1 ∧ ArgumentReordered m.2 n.2) members other) :
      ParamsReordered (.obj members) (.obj other)
  | positional {items other : List Json} (h : List.Forall₂ ArgumentReordered items other) :
      ParamsReordered (.arr items) (.arr other)

/-- Two documents that differ in the order of the keys of nodes that carry tags, and of
parameters, at any depth. A plain node keeps the order of its children, and an object whose keys
change places has each of them once. -/
inductive Reordered : Json → Json → Prop where
  | same (v : Json) : Reordered v v
  | plain {members : Row} (child : String × Json → Json)
      (hkeys : ∀ m ∈ members, isReserved m.1 = false)
      (hchild : ∀ m ∈ members, Reordered m.2 (child m)) :
      Reordered (.obj members) (.obj (members.map fun m => (m.1, child m)))
  | tagged {members other : Row} (part : String × Json → Json)
      (hreserved : ∃ m ∈ members, isReserved m.1 = true)
      (hnames : (members.map (·.1)).Nodup)
      (hrows : ∀ m ∈ members, m.1 = Tag.definition.text → Reordered m.2 (part m))
      (hparams : ∀ m ∈ members, m.1 = Tag.params.text → ParamsReordered m.2 (part m))
      (hsame : ∀ m ∈ members, m.1 ≠ Tag.definition.text → m.1 ≠ Tag.params.text → part m = m.2)
      (horder : (members.map fun m => (m.1, part m)).Perm other) :
      Reordered (.obj members) (.obj other)

/-- Two readings that yield the same, or of which none yields anything. -/
def SameValue {α : Type} (x y : Except Fault α) : Prop := ∀ a, x = .ok a ↔ y = .ok a

namespace SameValue

variable {α β : Type}

theorem refl (x : Except Fault α) : SameValue x x := fun _ => Iff.rfl

theorem symm {x y : Except Fault α} (h : SameValue x y) : SameValue y x := fun a => (h a).symm

theorem under {x y : Except Fault α} (h : SameValue x y) (key key' : String) :
    SameValue (Fault.under key x) (Fault.under key' y) := by
  intro a
  rw [under_eq_ok, under_eq_ok]
  exact h a

theorem bind {x y : Except Fault α} {f g : α → Except Fault β} (hxy : SameValue x y)
    (hfg : ∀ a, SameValue (f a) (g a)) : SameValue (x >>= f) (y >>= g) := by
  intro b
  rw [bind_eq_ok, bind_eq_ok]
  exact exists_congr fun a => and_congr (hxy a) (hfg a b)

end SameValue

section
variable {context : Option Context} {members other : Row}

/-- An object has no key that another one lacks. -/
def KeysFrom (members other : Row) : Prop := ∀ m ∈ members, ∃ n ∈ other, n.1 = m.1

theorem KeysFrom.forall {P : String → Prop} (h : KeysFrom members other)
    (hother : ∀ n ∈ other, P n.1) : ∀ m ∈ members, P m.1 := by
  intro m hm
  obtain ⟨n, hn, heq⟩ := h m hm
  rw [← heq]
  exact hother n hn

theorem KeysFrom.exists {P : String → Prop} (h : KeysFrom members other)
    (hmember : ∃ m ∈ members, P m.1) : ∃ n ∈ other, P n.1 := by
  obtain ⟨m, hm, hP⟩ := hmember
  obtain ⟨n, hn, heq⟩ := h m hm
  rw [← heq] at hP
  exact ⟨n, hn, hP⟩

theorem KeysFrom.keysWithin {tags : List Tag} (h : KeysFrom members other)
    (hother : KeysWithin other tags) : KeysWithin members tags :=
  h.forall (P := fun key => ∃ t ∈ tags, key = t.text) hother

theorem ReadsArgument.perm {a : Argument} (h : ReadsArgument context (.obj members) a)
    (hnames : (members.map (·.1)).Nodup) (hperm : members.Perm other) :
    ReadsArgument context (.obj other) a := by
  cases h with
  | literal hv => exact hv.elim
  | reference key =>
      rw [← List.singleton_perm.mp hperm]
      exact .reference key
  | @constant _ key hkeys hkey =>
      have hget : ∀ t, get? members t = get? other t := fun t =>
        Row.get?_perm hnames hperm t.text
      have hconstant : constantOf context members key = constantOf context other key := by
        simp only [constantOf, hget]
      rw [hconstant]
      have hfrom : KeysFrom other members := fun n hn => ⟨n, hperm.mem_iff.mpr hn, rfl⟩
      exact .constant (hfrom.keysWithin hkeys) (hget .context ▸ hkey)

theorem ArgumentReordered.sameValue {v w : Json} (h : ArgumentReordered v w) :
    SameValue (readArgument context v) (readArgument context w) := by
  cases h with
  | same v => exact .refl _
  | keys hnames h =>
      intro a
      rw [readArgument_eq_ok, readArgument_eq_ok]
      have hother := (h.map (·.1)).nodup_iff.mp hnames
      exact ⟨fun hread => hread.perm hnames h, fun hread => hread.perm hother h.symm⟩

theorem readNamed_sameValue
    (h : List.Forall₂ (fun m n => m.1 = n.1 ∧ ArgumentReordered m.2 n.2) members other) :
    SameValue (readNamed context members) (readNamed context other) := by
  induction h with
  | nil => exact .refl _
  | cons hfirst _ ih =>
      obtain ⟨hname, hvalue⟩ := hfirst
      simp only [readNamed, hname]
      exact (hvalue.sameValue.under _ _).bind fun _ => ih.bind fun _ => .refl _

theorem readPositional_sameValue {items others : List Json}
    (h : List.Forall₂ ArgumentReordered items others) (index : Nat) :
    SameValue (readPositional context index items) (readPositional context index others) := by
  induction h generalizing index with
  | nil => exact .refl _
  | cons hfirst _ ih =>
      exact (hfirst.sameValue.under _ _).bind fun _ => (ih (index + 1)).bind fun _ => .refl _

theorem ParamsReordered.sameValue {v w : Json} (h : ParamsReordered v w) :
    SameValue (readParams context v) (readParams context w) := by
  cases h with
  | same v => exact .refl _
  | named h => exact readNamed_sameValue h
  | positional h => exact readPositional_sameValue h 0

/-- Two nodes with the same keys and, but for definitions and parameters, the same values. -/
structure SameTags (members other : Row) : Prop where
  length : members.length = other.length
  keys : KeysFrom members other
  keysBack : KeysFrom other members
  value : ∀ t, t ≠ .definition → t ≠ .params → get? members t = get? other t

namespace SameTags

theorem symm (h : SameTags members other) : SameTags other members :=
  ⟨h.length.symm, h.keysBack, h.keys, fun t hrows hparams => (h.value t hrows hparams).symm⟩

variable (h : SameTags members other)
include h

theorem tagged {p : Primary} {v : Json} (htagged : Tagged members p v) : Tagged other p v := by
  have hvalue : get? members p.tag = get? other p.tag := by
    cases p with
    | field | context => exact h.value _ (by decide) (by decide)
    | provider kind => cases kind <;> exact h.value _ (by decide) (by decide)
  exact ⟨hvalue ▸ htagged.value, h.keysBack.keysWithin htagged.keys⟩

theorem column {column : String} (hcolumn : members = [(Tag.key.text, .str column)]) :
    other = [(Tag.key.text, .str column)] := by
  have hlength : other.length = 1 := by rw [← h.length, hcolumn]; rfl
  have hvalue : get? other .key = some (.str column) := by
    rw [← h.value .key (by decide) (by decide), hcolumn]
    rfl
  obtain ⟨m, rfl⟩ := List.length_eq_one_iff.mp hlength
  rw [List.mem_singleton.mp (get?_eq_some_mem hvalue)]

theorem readField_eq (v : Json) (enclosing : Option String) :
    readField members v enclosing = readField other v enclosing := by
  simp only [readField, readKey, readTransform, h.value .value (by decide) (by decide),
    h.value .key (by decide) (by decide), h.value .delimiter (by decide) (by decide),
    h.value .format (by decide) (by decide)]

theorem contextValue_eq (v : Json) :
    contextValue context members v = contextValue context other v := by
  simp only [contextValue, h.value .default (by decide) (by decide)]

theorem readQuery_eq (settings : Settings) (sql : String) :
    readQuery settings members sql = readQuery settings other sql := by
  simp only [readQuery, count?, h.value .limit (by decide) (by decide),
    h.value .offset (by decide) (by decide)]

theorem readShape_eq (kind : ProviderKind) : readShape members kind = readShape other kind := by
  cases kind with
  | value | entity | column => rfl
  | collection => simp only [readShape, readRowKey, h.value .key (by decide) (by decide)]

end SameTags

/-- With a part for each member, the values of the tags are the parts. -/
theorem get?_of_parts {part : String × Json → Json} (hnames : (members.map (·.1)).Nodup)
    (horder : (members.map fun m => (m.1, part m)).Perm other) (t : Tag) :
    get? other t = (get? members t).map fun v => part (t.text, v) := by
  have hparts : ((members.map fun m => (m.1, part m)).map (·.1)).Nodup := by
    rwa [List.map_map]
  have hlookup : get? (members.map fun m => (m.1, part m)) t =
      (get? members t).map fun v => part (t.text, v) := by
    clear hnames horder hparts
    induction members with
    | nil => rfl
    | cons m rest ih =>
        obtain ⟨name, v⟩ := m
        simp only [get?, List.map_cons, Row.get?_cons] at ih ⊢
        by_cases hname : t.text = name
        · simp only [hname, ↓reduceIte, Option.map_some]
        · simp only [hname, ↓reduceIte, ih]
  rw [← hlookup]
  exact (Row.get?_perm hparts horder t.text).symm

theorem sameTags_of_parts {part : String × Json → Json} (hnames : (members.map (·.1)).Nodup)
    (hsame : ∀ m ∈ members, m.1 ≠ Tag.definition.text → m.1 ≠ Tag.params.text → part m = m.2)
    (horder : (members.map fun m => (m.1, part m)).Perm other) : SameTags members other := by
  refine ⟨?_, fun m hm => ?_, fun n hn => ?_, fun t hrows hparams => ?_⟩
  · rw [← horder.length_eq, List.length_map]
  · exact ⟨_, horder.mem_iff.mp (List.mem_map_of_mem hm), rfl⟩
  · obtain ⟨m, hm, rfl⟩ := List.mem_map.mp (horder.mem_iff.mpr hn)
    exact ⟨m, hm, rfl⟩
  · rw [get?_of_parts hnames horder]
    cases hv : get? members t with
    | none => rfl
    | some v =>
        have hpart : part (t.text, v) = v := hsame _ (get?_eq_some_mem hv)
          (fun heq => hrows (Tag.text_injective heq))
          (fun heq => hparams (Tag.text_injective heq))
        rw [Option.map_some, hpart]

theorem readParamsOf_sameValue {part : String × Json → Json}
    (hnames : (members.map (·.1)).Nodup)
    (hparams : ∀ m ∈ members, m.1 = Tag.params.text → ParamsReordered m.2 (part m))
    (horder : (members.map fun m => (m.1, part m)).Perm other) :
    SameValue (readParamsOf context members) (readParamsOf context other) := by
  simp only [readParamsOf, get?_of_parts hnames horder]
  cases hv : get? members .params with
  | none => exact .refl _
  | some v => exact (hparams _ (get?_eq_some_mem hv) rfl).sameValue.under _ _

variable {settings : Settings} {inner inner' : Option (Except Fault Definition)}

theorem SameTags.readProvider_sameValue (h : SameTags members other)
    (hrows : SameValue (readEach inner) (readEach inner'))
    (hparams : SameValue (readParamsOf context members) (readParamsOf context other))
    (kind : ProviderKind) (v : Json) :
    SameValue (readProvider settings context members kind v inner)
      (readProvider settings context other kind v inner') := by
  simp only [readProvider, h.readQuery_eq, h.readShape_eq]
  refine SameValue.bind (.refl _) fun sql => SameValue.bind (.refl _) fun _ => ?_
  refine hrows.bind fun each => SameValue.bind (.refl _) fun query => ?_
  exact hparams.bind fun params => .refl _

private theorem readTagged_of_sameTags (h : SameTags members other)
    (hrows : SameValue (readEach inner) (readEach inner'))
    (hparams : SameValue (readParamsOf context members) (readParamsOf context other))
    {enclosing : Option String} {d : Definition}
    (hread : readTagged settings context members inner enclosing = .ok d) :
    readTagged settings context other inner' enclosing = .ok d := by
  cases column_or_tagged hread with
  | inl hcolumn =>
      obtain ⟨column, hmembers, hd⟩ := hcolumn
      exact readTagged_eq_ok.mpr (.inl ⟨column, h.column hmembers, hd⟩)
  | inr htagged =>
      obtain ⟨p, v, htagged⟩ := htagged
      rw [htagged.readTagged_eq] at hread
      rw [(h.tagged htagged).readTagged_eq]
      cases p with
      | field => simpa only [h.readField_eq] using hread
      | context => simpa only [h.contextValue_eq] using hread
      | provider kind => exact (h.readProvider_sameValue hrows hparams kind v d).mp hread

theorem SameTags.readTagged_sameValue (h : SameTags members other)
    (hrows : SameValue (readEach inner) (readEach inner'))
    (hparams : SameValue (readParamsOf context members) (readParamsOf context other))
    (enclosing : Option String) :
    SameValue (readTagged settings context members inner enclosing)
      (readTagged settings context other inner' enclosing) := fun _ =>
  ⟨readTagged_of_sameTags h hrows hparams,
    readTagged_of_sameTags h.symm hrows.symm hparams.symm⟩

/-- An object with a reserved key is read only if all its keys are. -/
theorem readObject_eq_ok {readers : List (String × Reader)} {enclosing : Option String}
    {d : Definition} (hany : ∃ m ∈ members, isReserved m.1 = true) :
    readObject settings context members readers enclosing = .ok d ↔
      (∀ m ∈ members, isReserved m.1 = true) ∧
        readTagged settings context members
          ((readers.lookup Tag.definition.text).map fun reader => reader none) enclosing =
          .ok d := by
  constructor
  · intro h
    have hkeys : ∀ m ∈ members, isReserved m.1 = true := by
      cases plain_or_tagged h with
      | inl hplain =>
          obtain ⟨m, hm, hreserved⟩ := hany
          rw [hplain m hm] at hreserved
          cases hreserved
      | inr htagged => exact htagged.2
    rw [readObject_tagged hany hkeys] at h
    exact ⟨hkeys, h⟩
  · intro h
    rw [readObject_tagged hany h.1]
    exact h.2

theorem SameTags.readObject_sameValue (h : SameTags members other)
    (hany : ∃ m ∈ members, isReserved m.1 = true) {readers readers' : List (String × Reader)}
    (hrows : SameValue
      (readEach ((readers.lookup Tag.definition.text).map fun reader => reader none))
      (readEach ((readers'.lookup Tag.definition.text).map fun reader => reader none)))
    (hparams : SameValue (readParamsOf context members) (readParamsOf context other))
    (enclosing : Option String) :
    SameValue (readObject settings context members readers enclosing)
      (readObject settings context other readers' enclosing) := by
  have hanyOther : ∃ n ∈ other, isReserved n.1 = true :=
    h.keys.exists (P := fun key => isReserved key = true) hany
  have hall : (∀ m ∈ members, isReserved m.1 = true) ↔ ∀ n ∈ other, isReserved n.1 = true :=
    ⟨h.keysBack.forall (P := fun key => isReserved key = true),
      h.keys.forall (P := fun key => isReserved key = true)⟩
  intro d
  rw [readObject_eq_ok hany, readObject_eq_ok hanyOther]
  exact and_congr hall (h.readTagged_sameValue hrows hparams enclosing d)

theorem readChildren_sameValue {f g : String × Json → Reader}
    (h : ∀ m ∈ members, ∀ name, SameValue (f m name) (g m name)) :
    SameValue (readChildren (members.map fun m => (m.1, f m)))
      (readChildren (members.map fun m => (m.1, g m))) := by
  induction members with
  | nil => exact .refl _
  | cons m rest ih =>
      obtain ⟨hfirst, hrest⟩ := List.forall_mem_cons.mp h
      exact ((hfirst _).under _ _).bind fun _ => (ih hrest).bind fun _ => .refl _

end

/-- Documents that differ in the order of keys are read as the same definition. -/
theorem Reordered.sameValue {v w : Json} (h : Reordered v w) (settings : Settings)
    (context : Option Context) (name : Option String) :
    SameValue (read settings context v name) (read settings context w name) := by
  induction h generalizing name with
  | same v => exact .refl _
  | @plain members child hkeys _ ih =>
      have hothers : ∀ m ∈ members.map fun m => (m.1, child m), isReserved m.1 = false :=
        List.forall_mem_map.mpr hkeys
      rw [read, read, readObject_plain hkeys, readObject_plain hothers, readers_eq_map,
        readers_eq_map, List.map_map]
      exact (readChildren_sameValue ih).bind fun _ => .refl _
  | @tagged members other part hany hnames _ hparams hsame horder ih =>
      have htags : SameTags members other := sameTags_of_parts hnames hsame horder
      have hrows : SameValue
          (readEach (((readers settings context members).lookup Tag.definition.text).map
            fun reader => reader none))
          (readEach (((readers settings context other).lookup Tag.definition.text).map
            fun reader => reader none)) := by
        rw [readers_eq_map, readers_eq_map, lookup_map, lookup_map,
          get?_of_parts hnames horder]
        cases hv : get? members .definition with
        | none => exact .refl _
        | some v => exact (ih _ (get?_eq_some_mem hv) rfl none).under _ _
      rw [read, read]
      exact htags.readObject_sameValue hany hrows (readParamsOf_sameValue hnames hparams horder)
        name

/-- The order of the keys of nodes with tags and of parameters does not matter: two documents
that differ only there are both refused, or both are read as one definition. -/
theorem readDocument_reordered {document other : Json} (h : Reordered document other)
    (settings : Settings) (context : Option Context) :
    (∃ d, readDocument settings context document = .ok d ∧
      readDocument settings context other = .ok d) ∨
    ∃ detail detail', readDocument settings context document = .error (.configuration detail) ∧
      readDocument settings context other = .error (.configuration detail') := by
  have hsame := h.sameValue settings context none
  simp only [readDocument]
  cases hread : read settings context document none with
  | ok d =>
      rw [(hsame d).mp hread]
      exact .inl ⟨d, rfl, rfl⟩
  | error f =>
      cases hother : read settings context other none with
      | ok d =>
          rw [(hsame d).mpr hother] at hread
          cases hread
      | error g => exact .inr ⟨f.message, g.message, rfl, rfl⟩

theorem reordered_of_perm {members other : Row} (hany : ∃ m ∈ members, isReserved m.1 = true)
    (hnames : (members.map (·.1)).Nodup) (h : members.Perm other) :
    Reordered (.obj members) (.obj other) := by
  refine .tagged (·.2) hany hnames (fun m _ _ => .same m.2) (fun m _ _ => .same m.2)
    (fun _ _ _ _ => rfl) ?_
  rwa [show (members.map fun m => (m.1, m.2)) = members from List.map_id members]

def newsTags : Row := [("$field", .str "csv"), ("$key", .str "tags"), ("$delimiter", .str "|")]

def newsYear : Row := [("$context", .str "year"), ("$default", .int 2016)]

/-- The tags of the news of a year. -/
def taggedNews : Row :=
  [("$collection", .str "SELECT tags FROM news WHERE year = ?"),
    ("$params", .arr [.obj newsYear]), ("$definition", .obj newsTags)]

/-- The same with the keys of all three objects the other way round. -/
def taggedNewsReversed : Row :=
  [("$definition", .obj newsTags.reverse), ("$params", .arr [.obj newsYear.reverse]),
    ("$collection", .str "SELECT tags FROM news WHERE year = ?")]

theorem reordered_taggedNews : Reordered (.obj taggedNews) (.obj taggedNewsReversed) := by
  have hyear : ParamsReordered (.arr [.obj newsYear]) (.arr [.obj newsYear.reverse]) :=
    .positional (.cons (.keys (by decide) (List.reverse_perm _).symm) .nil)
  have htags : Reordered (.obj newsTags) (.obj newsTags.reverse) :=
    reordered_of_perm (by decide) (by decide) (List.reverse_perm _).symm
  refine .tagged (fun m => (taggedNewsReversed.lookup m.1).getD .null) (by decide) (by decide)
    ?_ ?_ ?_ (List.reverse_perm _).symm
  · simp only [taggedNews, List.forall_mem_cons]
    exact ⟨fun h => absurd h (by decide), fun h => absurd h (by decide), fun _ => htags,
      List.forall_mem_nil _⟩
  · simp only [taggedNews, List.forall_mem_cons]
    exact ⟨fun h => absurd h (by decide), fun _ => hyear, fun h => absurd h (by decide),
      List.forall_mem_nil _⟩
  · simp only [taggedNews, List.forall_mem_cons]
    exact ⟨fun _ _ => rfl, fun _ h => absurd rfl h, fun h _ => absurd rfl h,
      List.forall_mem_nil _⟩

theorem readDocument_reordered_taggedNews :
    Reordered (.obj taggedNews) (.obj taggedNewsReversed) ∧
      readDocument ⟨true, none⟩ none (.obj taggedNews) = .ok (.provider (.collection none none)
        (.query "SELECT tags FROM news WHERE year = ?") [⟨none, .literal (.int 2016)⟩]
        (.field (.keyed "tags" (.csv "|")))) ∧
      ((∃ d, readDocument ⟨true, none⟩ none (.obj taggedNews) = .ok d ∧
          readDocument ⟨true, none⟩ none (.obj taggedNewsReversed) = .ok d) ∨
        ∃ detail detail',
          readDocument ⟨true, none⟩ none (.obj taggedNews) = .error (.configuration detail) ∧
          readDocument ⟨true, none⟩ none (.obj taggedNewsReversed) =
            .error (.configuration detail')) :=
  ⟨reordered_taggedNews, rfl, readDocument_reordered reordered_taggedNews ⟨true, none⟩ none⟩

end RowShape.Document
