import RowShape.Proofs.Basic
import RowShape.Proofs.Runs

/-!
What rendering can see of the row it stands in. A definition reads the columns that the
nodes at its own level name, and no other part of its context; what a provider renders
its rows by is a level of its own.
-/

namespace RowShape

theorem Template.render_congr (t : Template) {c₁ c₂ : Context}
    (h : ∀ key ∈ t.placeholders, c₁.lookup key = c₂.lookup key) :
    t.render c₁ = t.render c₂ := by
  have hholes : t.holes.flatMap
        (fun hole => hole.before ++ display (c₁.lookup (String.ofList hole.name))) =
      t.holes.flatMap
        (fun hole => hole.before ++ display (c₂.lookup (String.ofList hole.name))) := by
    rw [List.flatMap_def, List.flatMap_def]
    congr 1
    apply List.map_congr_left
    intro hole hmem
    rw [h _ (List.mem_map_of_mem hmem)]
  simp only [render, hholes]

namespace Field

/-- The columns that a field reads: its own, and for a template those of its placeholders. -/
def reads : Field → List String
  | constant _ => []
  | keyed key (.format template) => key :: template.placeholders
  | keyed key _ => [key]

theorem apply_congr (f : Field) {c₁ c₂ : Context}
    (h : ∀ key ∈ f.reads, c₁.lookup key = c₂.lookup key) : f.apply c₁ = f.apply c₂ := by
  cases f with
  | constant v => rfl
  | keyed key transform =>
      have hkey : c₁.lookup key = c₂.lookup key := h key (by cases transform <;> simp [reads])
      have htransform (v : Json) : transform.apply c₁ v = transform.apply c₂ v := by
        cases transform with
        | format template =>
            have hholes : ∀ k ∈ template.placeholders, c₁.lookup k = c₂.lookup k :=
              fun k hk => h k (List.mem_cons_of_mem key hk)
            simp only [Transform.apply, Template.render_congr template hholes]
        | boolean | integer | number | csv _ | json | datetime | callback _ | typed _ _ => rfl
      simp only [apply, hkey, htransform]

end Field

/-- The key that an argument refers to, if it is a reference. -/
def Argument.key? : Argument → Option String
  | literal _ => none
  | reference key => some key

theorem resolveAll_congr {params : List Parameter} {c₁ c₂ : Option Context}
    (h : ∀ key ∈ params.filterMap (·.value.key?),
      Context.lookup? c₁ key = Context.lookup? c₂ key) :
    resolveAll c₁ params = resolveAll c₂ params := by
  induction params with
  | nil => rfl
  | cons p rest ih =>
      have hrest : resolveAll c₁ rest = resolveAll c₂ rest := by
        apply ih
        intro key hkey
        apply h key
        rw [List.filterMap_cons]
        split
        · exact hkey
        · exact List.mem_cons_of_mem _ hkey
      have hp : p.value.resolve c₁ = p.value.resolve c₂ := by
        cases hvalue : p.value with
        | literal v => rfl
        | reference key =>
            have hkey : key ∈ (p :: rest).filterMap (·.value.key?) := by
              simp [hvalue, Argument.key?]
            simp only [Argument.resolve, h key hkey]
      simp only [resolveAll, hp, hrest]

namespace Definition

mutual

/-- The nodes at a definition's own level, which are those reached through maps alone. -/
def level : Definition → List Definition
  | .map entries => entriesLevel entries
  | d => [d]
termination_by structural d => d

def entriesLevel : List (String × Definition) → List Definition
  | [] => []
  | (_, d) :: rest => d.level ++ entriesLevel rest
termination_by structural entries => entries

end

/-- The keys that a node other than a map reads. A provider reads its references, and
nothing of what it renders its rows by. -/
def nodeReads : Definition → List String
  | .scalar (.str name) => [name]
  | .field f => f.reads
  | .provider _ _ params _ => params.filterMap (·.value.key?)
  | _ => []

/-- The keys that a definition reads at its own level. -/
def reads (d : Definition) : List String := d.level.flatMap nodeReads

theorem level_map (entries : List (String × Definition)) :
    (map entries).level = entries.flatMap fun e => e.2.level := by
  rw [level]
  induction entries with
  | nil => rfl
  | cons e rest ih => rw [entriesLevel, ih, List.flatMap_cons]

theorem level_subset_map {entries : List (String × Definition)} {e : String × Definition}
    (he : e ∈ entries) : e.2.level ⊆ (map entries).level := by
  intro node hnode
  rw [level_map]
  exact List.mem_flatMap.mpr ⟨e, he, hnode⟩

theorem reads_subset_map {entries : List (String × Definition)} {e : String × Definition}
    (he : e ∈ entries) : e.2.reads ⊆ (map entries).reads := by
  intro key hkey
  obtain ⟨node, hnode, hread⟩ := List.mem_flatMap.mp hkey
  exact List.mem_flatMap.mpr ⟨node, level_subset_map he hnode, hread⟩

theorem renderEntries_congr {entries : List (String × Definition)} {c₁ c₂ : Option Context}
    (h : ∀ e ∈ entries, e.2.render c₁ = e.2.render c₂) :
    renderEntries c₁ entries = renderEntries c₂ entries := by
  induction entries with
  | nil => rfl
  | cons e rest ih =>
      obtain ⟨hfirst, hrest⟩ := List.forall_mem_cons.mp h
      simp only [renderEntries, hfirst, ih hrest]

theorem lookup_getD (context : Option Context) (key : String) :
    (context.getD (.ofJson .null)).lookup key = Context.lookup? context key := by
  cases context <;> rfl

/-- Contexts with the same answers for what is read give the same computation. Where one
of them is absent, no string may stand at this level, since it would render itself. -/
theorem render_congr (d : Definition) (c₁ c₂ : Option Context) (hrow : .row ∉ d.level)
    (hreads : ∀ key ∈ d.reads, Context.lookup? c₁ key = Context.lookup? c₂ key)
    (hstring : c₁.isSome = c₂.isSome ∨ ∀ name, .scalar (.str name) ∉ d.level) :
    d.render c₁ = d.render c₂ := by
  induction d using Definition.induction with
  | scalar v =>
      cases v with
      | str name =>
          have hname := hreads name (by simp [reads, level, nodeReads])
          rcases hstring with hsome | hnone
          · cases c₁ <;> cases c₂ <;> simp_all [render, Context.lookup?]
          · exact absurd (List.mem_singleton_self _) (hnone name)
      | null | bool _ | num _ | arr _ | obj _ => rfl
  | field f =>
      have hf : f.apply (c₁.getD (.ofJson .null)) = f.apply (c₂.getD (.ofJson .null)) := by
        apply Field.apply_congr
        intro key hkey
        rw [lookup_getD, lookup_getD]
        exact hreads key (by simpa [reads, level, nodeReads] using hkey)
      simp only [render, hf]
  | provider shape source params each _ =>
      have hparams : resolveAll c₁ params = resolveAll c₂ params :=
        resolveAll_congr fun key hkey => hreads key (by simpa [reads, level, nodeReads] using hkey)
      simp only [render, hparams]
  | map entries ih =>
      have hentries : renderEntries c₁ entries = renderEntries c₂ entries := by
        apply renderEntries_congr
        intro e he
        apply ih e he
        · exact fun h => hrow (level_subset_map he h)
        · exact fun key hkey => hreads key (reads_subset_map he hkey)
        · exact hstring.imp_right fun h name hname => h name (level_subset_map he hname)
      simp only [render, hentries]
  | row => exact absurd (List.mem_singleton_self _) hrow

/-- Rendering is lexically scoped: contexts that agree on the keys read at a definition's
own level cannot be told apart. A provider in particular sees of its row what its references
resolve to, and without strings at that level no context is as good as an empty one. -/
theorem render_scoped (d : Definition) :
    (.row ∉ d.level → ∀ c₁ c₂ : Context, (∀ key ∈ d.reads, c₁.lookup key = c₂.lookup key) →
      Fetching.SameRuns (d.render (some c₁)) (d.render (some c₂))) ∧
    (∀ (shape : Provider) (source : Source) (params : List Parameter) (each : Definition)
      (c₁ c₂ : Option Context), resolveAll c₁ params = resolveAll c₂ params →
      Fetching.SameRuns ((provider shape source params each).render c₁)
        ((provider shape source params each).render c₂)) ∧
    (.row ∉ d.level → (∀ name, .scalar (.str name) ∉ d.level) →
      Fetching.SameRuns (d.render none) (d.render (some (.ofJson (.obj []))))) := by
  refine ⟨?_, ?_, ?_⟩
  · intro hrow c₁ c₂ hreads answers
    rw [render_congr d (some c₁) (some c₂) hrow hreads (.inl rfl)]
  · intro shape source params each c₁ c₂ hparams answers
    simp only [render, hparams]
  · intro hrow hstring answers
    rw [render_congr d none (some (.ofJson (.obj []))) hrow (fun _ _ => rfl) (.inr hstring)]

/-- The name of the author that a row refers to. -/
def author : Definition :=
  .provider .entity (.query "SELECT name FROM author WHERE id = ?")
    [⟨none, .reference "authorId"⟩] .row

/-- An integer column beside the author, both read from one row. -/
def newsItem : Definition := .map [("id", .field (.keyed "id" .integer)), ("author", author)]

theorem render_scoped_newsItem :
    .row ∉ newsItem.level ∧ (∀ name, .scalar (.str name) ∉ newsItem.level) ∧
    Fetching.SameRuns
      (newsItem.render (some (.ofRow [("id", .int 1), ("authorId", .int 7), ("title", .null)])))
      (newsItem.render (some (.ofRow [("authorId", .int 7), ("id", .int 1)]))) ∧
    Fetching.SameRuns (author.render (some (.ofRow [("id", .int 1), ("authorId", .int 7)])))
      (author.render (some (.ofRow [("authorId", .int 7), ("id", .int 2)]))) ∧
    Fetching.SameRuns (newsItem.render none) (newsItem.render (some (.ofJson (.obj [])))) := by
  have hrow : .row ∉ newsItem.level := by simp [newsItem, author, level, entriesLevel]
  have hstring : ∀ name, .scalar (.str name) ∉ newsItem.level := by
    simp [newsItem, author, level, entriesLevel]
  have hreads : newsItem.reads = ["id", "authorId"] := rfl
  refine ⟨hrow, hstring, (render_scoped newsItem).1 hrow _ _ ?_,
    (render_scoped newsItem).2.1 _ _ _ _ _ _ rfl, (render_scoped newsItem).2.2 hrow hstring⟩
  rw [hreads]
  exact List.forall_mem_cons.mpr ⟨rfl, List.forall_mem_singleton.mpr rfl⟩

end Definition

end RowShape
