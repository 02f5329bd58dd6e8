import RowShape.Proofs.Reading

/-!
Where a document is refused. The keys of a fault lead to a value of the document that is
refused on its own, where it stands, for the very same cause; its message names these keys.
-/

namespace RowShape.Document

/-- As what a value of a document is read: a definition under an enclosing key or under none,
the parameters of a provider, or one of them. -/
inductive Standing where
  | definition (enclosing : Option String)
  | params
  | argument

/-- The fault with which a value is refused on its own. -/
def Standing.Refuses (settings : Settings) (context : Option Context) (v : Json) (f : Fault) :
    Standing → Prop
  | definition enclosing => read settings context v enclosing = .error f
  | params => readParams context v = .error f
  | argument => readArgument context v = .error f

/-- The parts of a value that are read on their own, each with its key and as what it is read.
A child is enclosed by its key, the definition of rows by none. -/
inductive Part : Standing → Json → String → Standing → Json → Prop where
  | child {enclosing : Option String} {members : Row} {m : String × Json}
      (hkeys : ∀ m ∈ members, isReserved m.1 = false) (hm : m ∈ members) :
      Part (.definition enclosing) (.obj members) m.1 (.definition (some m.1)) m.2
  | rows {enclosing : Option String} {members : Row} {v : Json}
      (hv : get? members .definition = some v) :
      Part (.definition enclosing) (.obj members) Tag.definition.text (.definition none) v
  | params {enclosing : Option String} {members : Row} {v : Json}
      (hv : get? members .params = some v) :
      Part (.definition enclosing) (.obj members) Tag.params.text .params v
  | named {members : Row} {m : String × Json} (hm : m ∈ members) :
      Part .params (.obj members) m.1 .argument m.2
  | positional {items : List Json} {index : Nat} {v : Json} (hv : items[index]? = some v) :
      Part .params (.arr items) (String.ofList (natText index)) .argument v

/-- What a path of keys leads to, part by part. -/
inductive Leads : Standing → Json → List String → Standing → Json → Prop where
  | here (s : Standing) (v : Json) : Leads s v [] s v
  | step {s t u : Standing} {v w x : Json} {key : String} {path : List String}
      (hpart : Part s v key t w) (hrest : Leads t w path u x) : Leads s v (key :: path) u x

/-- All faults are found at the value at hand, but for those that have the property. -/
def FailsHereOr {α : Type} (elsewhere : Fault → Prop) (x : Except Fault α) : Prop :=
  ∀ f, x = .error f → f.path = [] ∨ elsewhere f

abbrev FailsHere {α : Type} (x : Except Fault α) : Prop := FailsHereOr (fun _ => False) x

/-- A fault of a part, seen from the whole. -/
def Fault.below (key : String) (f : Fault) : Fault := ⟨key :: f.path, f.cause⟩

theorem under_eq_error {α : Type} {key : String} {x : Except Fault α} {f : Fault} :
    Fault.under key x = .error f ↔ ∃ g, x = .error g ∧ f = g.below key := by
  cases x with
  | ok a => simp only [Fault.under, reduceCtorEq, false_and, exists_false]
  | error g =>
      simp only [Fault.under, Except.error.injEq, exists_eq_left', Fault.below, eq_comm]

section
variable {α β : Type} {elsewhere : Fault → Prop}

theorem failsHereOr_ok (a : α) : FailsHereOr elsewhere (.ok a) := nofun

theorem failsHereOr_here (cause : Cause) :
    FailsHereOr elsewhere (Fault.here cause : Except Fault α) := by
  intro f h
  cases h
  exact .inl rfl

theorem FailsHereOr.bind {x : Except Fault α} {next : α → Except Fault β}
    (hx : FailsHereOr elsewhere x) (hnext : ∀ a, FailsHereOr elsewhere (next a)) :
    FailsHereOr elsewhere (x >>= next) := by
  intro f h
  cases bind_eq_error.mp h with
  | inl h => exact hx f h
  | inr h =>
      obtain ⟨a, _, h⟩ := h
      exact hnext a f h

theorem FailsHere.or {x : Except Fault α} (h : FailsHere x) : FailsHereOr elsewhere x := by
  intro f hf
  exact .inl ((h f hf).resolve_right id)

end

section
variable {members : Row} {context : Option Context}

theorem expectText_failsHere (t : Tag) (wanted : Wanted) (v : Json) :
    FailsHere (expectText t wanted v) := by
  cases v with
  | str s => exact failsHereOr_ok s
  | null | bool _ | num _ | arr _ | obj _ => exact failsHereOr_here _

theorem count?_failsHere (t : Tag) : FailsHere (count? members t) := by
  simp only [count?]
  split
  · exact failsHereOr_ok _
  · split
    · exact failsHereOr_ok _
    · exact failsHereOr_here _
  · exact failsHereOr_here _

theorem contextValue_failsHere (v : Json) : FailsHere (contextValue context members v) := by
  apply (expectText_failsHere _ _ v).bind
  intro key
  cases Context.lookup? context key <;> exact failsHereOr_ok _

theorem readArgument_failsHere (v : Json) : FailsHere (readArgument context v) := by
  cases v with
  | null | bool _ | num _ | str _ => exact failsHereOr_ok _
  | arr items => exact failsHereOr_here _
  | obj members =>
      simp only [readArgument]
      split
      · split
        · exact failsHereOr_here _
        · split
          · exact failsHereOr_ok _
          · exact failsHereOr_here _
      · split
        · exact failsHereOr_here _
        · split
          · exact failsHereOr_here _
          · exact (contextValue_failsHere _).bind fun _ => failsHereOr_ok _

theorem readTransform_failsHere (kind : String) : FailsHere (readTransform members kind) := by
  simp only [readTransform]
  split
  case h_6 =>
    split
    · exact failsHereOr_ok _
    · exact (expectText_failsHere _ _ _).bind fun _ => failsHereOr_ok _
  case h_7 =>
    split
    · exact failsHereOr_here _
    · exact (expectText_failsHere _ _ _).bind fun _ => failsHereOr_ok _
  case h_8 => exact failsHereOr_here _
  all_goals exact failsHereOr_ok _

theorem readKey_failsHere (kind : String) (enclosing : Option String) :
    FailsHere (readKey members kind enclosing) := by
  simp only [readKey]
  split
  · exact expectText_failsHere _ _ _
  · exact failsHereOr_ok _
  · exact failsHereOr_here _

theorem readField_failsHere (v : Json) (enclosing : Option String) :
    FailsHere (readField members v enclosing) := by
  apply (expectText_failsHere _ _ v).bind
  intro kind
  split
  · split
    · exact failsHereOr_here _
    · exact failsHereOr_ok _
  · apply (readKey_failsHere kind enclosing).bind
    intro key
    exact (readTransform_failsHere kind).bind fun _ => failsHereOr_ok _

theorem readQuery_failsHere (settings : Settings) (sql : String) :
    FailsHere (readQuery settings members sql) := by
  apply (count?_failsHere .limit).bind
  intro limit
  apply (count?_failsHere .offset).bind
  intro offset
  split
  · exact failsHereOr_ok _
  · split
    · exact failsHereOr_here _
    · exact failsHereOr_ok _

theorem readShape_failsHere (kind : ProviderKind) : FailsHere (readShape members kind) := by
  cases kind with
  | value | entity | column => exact failsHereOr_ok _
  | collection =>
      simp only [readShape, readRowKey]
      refine FailsHereOr.bind ?_ fun _ => failsHereOr_ok _
      split
      · exact failsHereOr_ok _
      · exact (expectText_failsHere _ _ _).bind fun _ => failsHereOr_ok _

theorem requireClient_failsHere (settings : Settings) (t : Tag) :
    FailsHere (requireClient settings t) := by
  simp only [requireClient]
  split
  · exact failsHereOr_ok _
  · exact failsHereOr_here _

/-- Parameters by name fail with the first of them that does. -/
theorem readNamed_eq_error {f : Fault} (h : readNamed context members = .error f) :
    ∃ m ∈ members, ∃ g, readArgument context m.2 = .error g ∧ f = g.below m.1 := by
  induction members with
  | nil => cases h
  | cons m rest ih =>
      cases bind_eq_error.mp h with
      | inl hfirst =>
          obtain ⟨g, hg, hf⟩ := under_eq_error.mp hfirst
          exact ⟨m, List.mem_cons_self, g, hg, hf⟩
      | inr hothers =>
          obtain ⟨value, _, hothers⟩ := hothers
          cases bind_eq_error.mp hothers with
          | inl hrest =>
              obtain ⟨n, hn, hfault⟩ := ih hrest
              exact ⟨n, List.mem_cons_of_mem m hn, hfault⟩
          | inr hend =>
              obtain ⟨_, _, hend⟩ := hend
              exact (pure_eq_error.mp hend).elim

theorem readPositional_eq_error {items : List Json} {start : Nat} {f : Fault}
    (h : readPositional context start items = .error f) :
    ∃ index v, items[index]? = some v ∧
      ∃ g, readArgument context v = .error g ∧
        f = g.below (String.ofList (natText (start + index))) := by
  induction items generalizing start with
  | nil => cases h
  | cons v rest ih =>
      cases bind_eq_error.mp h with
      | inl hfirst => exact ⟨0, v, rfl, under_eq_error.mp hfirst⟩
      | inr hothers =>
          obtain ⟨value, _, hothers⟩ := hothers
          cases bind_eq_error.mp hothers with
          | inl hrest =>
              obtain ⟨index, w, hw, hfault⟩ := ih hrest
              rw [Nat.add_assoc, Nat.add_comm 1 index] at hfault
              exact ⟨index + 1, w, hw, hfault⟩
          | inr hend =>
              obtain ⟨_, _, hend⟩ := hend
              exact (pure_eq_error.mp hend).elim

/-- What stands under `$definition` or under `$params` is refused on its own. -/
inductive Inner (context : Option Context) (members : Row)
    (inner : Option (Except Fault Definition)) (f : Fault) : Prop where
  | rows {g : Fault} (h : inner = some (.error g)) (hf : f = g.below Tag.definition.text)
  | params {v : Json} {g : Fault} (hv : get? members .params = some v)
      (h : readParams context v = .error g) (hf : f = g.below Tag.params.text)

theorem readProvider_failsHereOr (settings : Settings) (kind : ProviderKind) (v : Json)
    (inner : Option (Except Fault Definition)) :
    FailsHereOr (Inner context members inner)
      (readProvider settings context members kind v inner) := by
  have hinner : FailsHereOr (Inner context members inner) (readEach inner) := by
    cases inner with
    | none => exact failsHereOr_ok _
    | some x =>
        intro f h
        obtain ⟨g, hg, hf⟩ := under_eq_error.mp h
        exact .inr (.rows (congrArg some hg) hf)
  have hparams : FailsHereOr (Inner context members inner) (readParamsOf context members) := by
    intro f h
    rw [readParamsOf] at h
    split at h
    · cases h
    · next w hw =>
        obtain ⟨g, hg, hf⟩ := under_eq_error.mp h
        exact .inr (.params hw hg hf)
  refine (expectText_failsHere _ _ v).or.bind fun sql => ?_
  refine (requireClient_failsHere settings _).or.bind fun _ => hinner.bind fun each => ?_
  refine (readQuery_failsHere settings sql).or.bind fun query => hparams.bind fun params => ?_
  exact (readShape_failsHere kind).or.bind fun shape => failsHereOr_ok _

theorem readTagged_failsHereOr (settings : Settings) (inner : Option (Except Fault Definition))
    (enclosing : Option String) :
    FailsHereOr (Inner context members inner)
      (readTagged settings context members inner enclosing) := by
  simp only [readTagged]
  split
  · exact failsHereOr_here _
  · split
    · exact failsHereOr_here _
    · split
      · split
        · exact failsHereOr_ok _
        · exact failsHereOr_here _
      · split <;> exact failsHereOr_here _
      · exact failsHereOr_here _
    · split
      · exact failsHereOr_here _
      · split
        · exact (readField_failsHere _ enclosing).or.bind fun _ => failsHereOr_ok _
        · exact (contextValue_failsHere _).or.bind fun _ => failsHereOr_ok _
        · exact readProvider_failsHereOr settings _ _ inner

/-- The children of an object fail with the first of them, in their order, that does. -/
theorem readChildren_eq_error {child : Json → Reader} {f : Fault} :
    readChildren (members.map fun m => (m.1, child m.2)) = .error f ↔
      ∃ before m after g, members = before ++ m :: after ∧
        (∀ b ∈ before, ∃ d, child b.2 (some b.1) = .ok d) ∧
        child m.2 (some m.1) = .error g ∧ f = g.below m.1 := by
  induction members with
  | nil =>
      constructor
      · intro h
        cases h
      · intro h
        obtain ⟨before, m, after, _, heq, _⟩ := h
        cases before <;> cases heq
  | cons first rest ih =>
      rw [List.map_cons, readChildren, bind_eq_error, under_eq_error]
      constructor
      · intro h
        cases h with
        | inl hfirst =>
            obtain ⟨g, hg, hf⟩ := hfirst
            exact ⟨[], first, rest, g, rfl, fun _ hb => absurd hb List.not_mem_nil, hg, hf⟩
        | inr hothers =>
            obtain ⟨d, hd, hothers⟩ := hothers
            cases bind_eq_error.mp hothers with
            | inl hrest =>
                obtain ⟨before, m, after, g, rfl, hbefore, hg, hf⟩ := ih.mp hrest
                refine ⟨first :: before, m, after, g, rfl, ?_, hg, hf⟩
                exact List.forall_mem_cons.mpr ⟨⟨d, under_eq_ok.mp hd⟩, hbefore⟩
            | inr hend =>
                obtain ⟨_, _, hend⟩ := hend
                exact (pure_eq_error.mp hend).elim
      · intro h
        obtain ⟨before, m, after, g, heq, hbefore, hg, hf⟩ := h
        cases before with
        | nil =>
            cases heq
            exact .inl ⟨g, hg, hf⟩
        | cons b before =>
            cases heq
            obtain ⟨⟨d, hd⟩, hbefore⟩ := List.forall_mem_cons.mp hbefore
            refine .inr ⟨d, under_eq_ok.mpr hd, bind_eq_error.mpr (.inl ?_)⟩
            exact ih.mpr ⟨before, m, after, g, rfl, hbefore, hg, hf⟩

end

section
variable {settings : Settings} {context : Option Context}

/-- An object without reserved keys fails with its first child that does. -/
theorem read_plain_eq_error {members : Row} (hkeys : ∀ m ∈ members, isReserved m.1 = false)
    {enclosing : Option String} {f : Fault} :
    read settings context (.obj members) enclosing = .error f ↔
      ∃ before m after g, members = before ++ m :: after ∧
        (∀ b ∈ before, ∃ d, read settings context b.2 (some b.1) = .ok d) ∧
        read settings context m.2 (some m.1) = .error g ∧ f = g.below m.1 := by
  rw [read, readObject_plain hkeys, readers_eq_map, ← readChildren_eq_error, bind_eq_error]
  simp only [pure_eq_error, and_false, exists_false, or_false]

/-- One step towards the offending value: a fault that is not found at the value at hand is
found at one of its parts. -/
theorem Standing.Refuses.here_or_part {s : Standing} {v : Json} {f : Fault}
    (h : s.Refuses settings context v f) :
    f.path = [] ∨ ∃ key t w g, Part s v key t w ∧ t.Refuses settings context w g ∧
      f = g.below key := by
  cases s with
  | argument => exact .inl ((readArgument_failsHere v f h).resolve_right id)
  | params =>
      cases v with
      | null | bool _ | num _ | str _ =>
          cases h
          exact .inl rfl
      | obj members =>
          obtain ⟨m, hm, g, hg, hf⟩ := readNamed_eq_error h
          exact .inr ⟨m.1, .argument, m.2, g, .named hm, hg, hf⟩
      | arr items =>
          obtain ⟨index, w, hw, g, hg, hf⟩ := readPositional_eq_error h
          rw [Nat.zero_add] at hf
          exact .inr ⟨_, .argument, w, g, .positional hw, hg, hf⟩
  | definition enclosing =>
      cases v with
      | null | bool _ | num _ | str _ => cases h
      | arr items =>
          cases h
          exact .inl rfl
      | obj members =>
          by_cases hkeys : ∀ m ∈ members, isReserved m.1 = false
          · obtain ⟨before, m, after, g, rfl, _, hg, hf⟩ := (read_plain_eq_error hkeys).mp h
            have hm : m ∈ before ++ m :: after := List.mem_append_right before List.mem_cons_self
            exact .inr ⟨m.1, .definition (some m.1), m.2, g, .child hkeys hm, hg, hf⟩
          · have hany : members.any (fun m => isReserved m.1) = true := by
              simpa only [not_forall, Bool.not_eq_false, exists_prop, List.any_eq_true] using hkeys
            simp only [Refuses, read, readObject, hany, Bool.not_true, Bool.false_eq_true,
              ↓reduceIte, readers_eq_map, lookup_map, Option.map_map] at h
            split at h
            · cases h
              exact .inl rfl
            · refine (readTagged_failsHereOr settings _ enclosing f h).imp_right fun hinner => ?_
              cases hinner with
              | @rows g hg hf =>
                  obtain ⟨w, hw, hg⟩ := Option.map_eq_some_iff.mp hg
                  exact ⟨_, .definition none, w, g, .rows hw, hg, hf⟩
              | @params w g hw hg hf => exact ⟨_, .params, w, g, .params hw, hg, hf⟩

/-- The keys of a fault lead to the value whose own fault it is. -/
theorem Standing.Refuses.exists_leads {s : Standing} {v : Json} {f : Fault}
    (h : s.Refuses settings context v f) :
    ∃ t w, Leads s v f.path t w ∧ t.Refuses settings context w ⟨[], f.cause⟩ := by
  obtain ⟨path, cause⟩ := f
  induction path generalizing s v with
  | nil => exact ⟨s, v, .here s v, h⟩
  | cons key path ih =>
      cases h.here_or_part with
      | inl hnil => cases hnil
      | inr hpart =>
          obtain ⟨key', t, w, g, hpart, hg, hf⟩ := hpart
          cases hf
          obtain ⟨u, x, hleads, hx⟩ := ih hg
          exact ⟨u, x, .step hpart hleads, hx⟩

end

namespace Fault

theorem foldl_join {path : List String} {start : String} (hstart : start ≠ "") :
    path.foldl join start = ".".intercalate (start :: path) := by
  induction path generalizing start with
  | nil => rfl
  | cons key rest ih =>
      have hjoin : join start key = start ++ "." ++ key :=
        if_neg fun h => hstart (String.isEmpty_iff.mp h)
      have hne : start ++ "." ++ key ≠ "" := by
        intro h
        exact hstart (String.append_eq_empty_iff.mp (String.append_eq_empty_iff.mp h).1).1
      rw [List.foldl_cons, hjoin, ih hne, String.intercalate_cons_cons]
      cases rest with
      | nil => rfl
      | cons next rest =>
          simp only [String.intercalate_cons_cons, String.append_assoc]

/-- The keys of a path, but for empty ones at its start, with points between them. -/
theorem pathText_eq (f : Fault) :
    f.pathText = ".".intercalate (f.path.dropWhile fun key => key.isEmpty) := by
  obtain ⟨path, cause⟩ := f
  change path.foldl join "" = _
  induction path with
  | nil => rfl
  | cons key rest ih =>
      rw [List.foldl_cons, List.dropWhile_cons]
      change rest.foldl join key = _
      by_cases hkey : key = ""
      · rw [hkey]
        exact ih
      · have hempty : key.isEmpty = false := by
          rw [← Bool.not_eq_true, String.isEmpty_iff]
          exact hkey
        rw [foldl_join hkey, hempty]
        rfl

end Fault

/-- A refused document has a value that is refused on its own, and its message is the cause of
that behind the keys that lead there. An object without reserved keys is refused for the first
of its children that is. -/
theorem readDocument_located (settings : Settings) (context : Option Context) :
    (∀ document e, readDocument settings context document = .error e →
      ∃ path s v cause, Leads (.definition none) document path s v ∧
        s.Refuses settings context v ⟨[], cause⟩ ∧
        let place := ".".intercalate (path.dropWhile fun key => key.isEmpty)
        e = .configuration
          (if place = "" then cause.detail else place ++ ": " ++ cause.detail)) ∧
    ∀ members : Row, (∀ m ∈ members, isReserved m.1 = false) → ∀ enclosing f,
      read settings context (.obj members) enclosing = .error f ↔
        ∃ before m after g, members = before ++ m :: after ∧
          (∀ b ∈ before, ∃ d, read settings context b.2 (some b.1) = .ok d) ∧
          read settings context m.2 (some m.1) = .error g ∧ f = ⟨m.1 :: g.path, g.cause⟩ := by
  constructor
  · intro document e h
    cases hread : read settings context document none with
    | ok d =>
        rw [readDocument, hread] at h
        cases h
    | error f =>
        rw [readDocument, hread] at h
        cases h
        have hrefused : (Standing.definition none).Refuses settings context document f := hread
        obtain ⟨s, v, hleads, hv⟩ := hrefused.exists_leads
        refine ⟨f.path, s, v, f.cause, hleads, hv, ?_⟩
        simp only [Fault.toError, Fault.message, Fault.pathText_eq, String.isEmpty_iff]
  · intro members hkeys enclosing f
    exact read_plain_eq_error hkeys

/-- A column that is read, and a list of news with a reference that is none. -/
def newsMembers : Row :=
  [("title", .str "title"), ("news", .obj [("$collection", .str "SELECT id FROM news"),
    ("$params", .arr [.int 1, .obj [("$ref", .int 2)]])])]

/-- The second parameter of the news is at fault, which makes them the first child that is
refused. -/
theorem readDocument_located_newsParams :
    (∃ path s v cause, Leads (.definition none) (.obj newsMembers) path s v ∧
      s.Refuses ⟨true, none⟩ none v ⟨[], cause⟩ ∧
      let place := ".".intercalate (path.dropWhile fun key => key.isEmpty)
      Error.configuration "news.$params.1: '$ref' must be a context key, found number" =
        .configuration (if place = "" then cause.detail else place ++ ": " ++ cause.detail)) ∧
      ∃ before m after g, newsMembers = before ++ m :: after ∧
        (∀ b ∈ before, ∃ d, read ⟨true, none⟩ none b.2 (some b.1) = .ok d) ∧
        read ⟨true, none⟩ none m.2 (some m.1) = .error g ∧
        (⟨["news", "$params", "1"], .mistyped "$ref" .contextKey .number⟩ : Fault) =
          ⟨m.1 :: g.path, g.cause⟩ := by
  constructor
  · exact (readDocument_located ⟨true, none⟩ none).1 _ _ rfl
  · have hkeys : ∀ m ∈ newsMembers, isReserved m.1 = false := by decide
    exact ((readDocument_located ⟨true, none⟩ none).2 newsMembers hkeys none _).mp rfl

end RowShape.Document
