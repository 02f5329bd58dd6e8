import Mathlib.Data.List.Infix
import RowShape.Template

/-!
Templates as texts with holes. A pattern is literals with placeholders between them in one way
only, and a template fills in what the context has for each of these placeholders.
-/

namespace RowShape.Template

/-- An ASCII letter or an underscore, then letters, digits and underscores. -/
def IsName : List Char → Prop
  | [] => False
  | first :: rest =>
    (first.isAlpha = true ∨ first = '_') ∧ ∀ c ∈ rest, c.isAlphanum = true ∨ c = '_'

/-- A name in braces. -/
def placeholder (name : List Char) : List Char := '\x7b' :: name ++ ['\x7d']

/-- A text without a placeholder, whatever other braces it holds. -/
def IsLiteral (s : List Char) : Prop := ∀ name, IsName name → ¬ placeholder name <:+: s

/-- Literals with placeholders between them, and the text that they make up. -/
structure Decomposes (pattern : List Char) (holes : List Hole) (ending : List Char) : Prop where
  text : holes.flatMap (fun h => h.before ++ placeholder h.name) ++ ending = pattern
  names : ∀ h ∈ holes, IsName h.name
  literals : ∀ h ∈ holes, IsLiteral h.before
  ending : IsLiteral ending

/-- The end of a text opens a placeholder with a name that may still go on. -/
def Opens (s name : List Char) : Prop := (name = [] ∨ IsName name) ∧ ('\x7b' :: name) <:+ s

theorem isName_concat {name : List Char} {c : Char} :
    IsName (name ++ [c]) ↔ (name = [] ∨ IsName name) ∧ continuesName name c = true := by
  cases name with
  | nil => simp [IsName, continuesName]
  | cons first rest =>
      simp only [List.cons_append, IsName, List.forall_mem_append, List.forall_mem_singleton,
        continuesName, reduceCtorEq, false_or, List.isEmpty_cons, Bool.not_false, Bool.and_true,
        Bool.or_eq_true, beq_iff_eq, Char.isAlphanum]
      tauto

theorem concat_suffix_concat {s t : List Char} {a b : Char} :
    s ++ [a] <:+ t ++ [b] ↔ s <:+ t ∧ a = b := by
  rw [List.suffix_append_inj_of_length_eq (show [a].length = [b].length from rfl),
    List.singleton_inj]

/-- What a character does to an open placeholder: a brace opens one anew, and whatever does
not continue its name closes it. -/
theorem opens_concat {s name : List Char} {c : Char} :
    Opens (s ++ [c]) name ↔ (name = [] ∧ c = '\x7b') ∨
      ∃ begun, name = begun ++ [c] ∧ Opens s begun ∧ continuesName begun c = true := by
  cases name.eq_nil_or_concat with
  | inl hnil =>
      have hbrace : ['\x7b'] <:+ s ++ [c] ↔ [] <:+ s ∧ '\x7b' = c :=
        concat_suffix_concat (s := [])
      subst hnil
      rw [Opens, hbrace]
      simp [eq_comm (a := '\x7b')]
  | inr hconcat =>
      obtain ⟨begun, b, rfl⟩ := hconcat
      have hlast : '\x7b' :: (begun ++ [b]) <:+ s ++ [c] ↔ '\x7b' :: begun <:+ s ∧ b = c :=
        concat_suffix_concat (s := '\x7b' :: begun)
      rw [List.concat_eq_append, Opens, isName_concat, hlast]
      simp only [List.append_eq_nil_iff, reduceCtorEq, and_false, false_or, false_and,
        List.append_singleton_inj, Opens]
      constructor
      · intro h
        obtain ⟨⟨hname, hcontinues⟩, hsuffix, rfl⟩ := h
        exact ⟨begun, ⟨rfl, rfl⟩, ⟨hname, hsuffix⟩, hcontinues⟩
      · intro h
        obtain ⟨_, ⟨rfl, rfl⟩, ⟨hname, hsuffix⟩, hcontinues⟩ := h
        exact ⟨⟨hname, hcontinues⟩, hsuffix, rfl⟩

theorem not_isName_nil : ¬ IsName [] := id

/-- Only a closing brace can complete a placeholder, and only one that is open. -/
theorem isLiteral_concat {s : List Char} {c : Char} :
    IsLiteral (s ++ [c]) ↔
      IsLiteral s ∧ (c = '\x7d' → ∀ name, Opens s name → name = []) := by
  have hlast (name : List Char) :
      placeholder name <:+ s ++ [c] ↔ '\x7b' :: name <:+ s ∧ '\x7d' = c :=
    concat_suffix_concat
  simp only [IsLiteral, List.infix_concat_iff, hlast, not_or, Opens]
  constructor
  · intro h
    refine ⟨fun name hname => (h name hname).2, fun hc name hopens => ?_⟩
    obtain ⟨hname, hsuffix⟩ := hopens
    exact hname.resolve_right fun hname => (h name hname).1 ⟨hsuffix, hc.symm⟩
  · intro h name hname
    refine ⟨fun hclosed => ?_, h.1 name hname⟩
    have hnil : name = [] := h.2 hclosed.2.symm name ⟨.inr hname, hclosed.1⟩
    exact not_isName_nil (hnil ▸ hname)

/-- What a scan knows of the text behind the last hole: it holds no placeholder, and the state
of the scan is the name of the one that is open. -/
structure Scanned (s : List Char) (state : Option (List Char)) : Prop where
  literal : IsLiteral s
  opened : ∀ name, Opens s name ↔ state = some name

theorem scanned_nil : Scanned [] none := by
  constructor
  · intro name _ h
    rw [placeholder] at h
    simp at h
  · intro name
    simp [Opens]

theorem Scanned.brace {s : List Char} {state : Option (List Char)} (h : Scanned s state) :
    Scanned (s ++ ['\x7b']) (some []) := by
  constructor
  · exact isLiteral_concat.mpr ⟨h.literal, fun hc => absurd hc (by decide)⟩
  · intro name
    rw [opens_concat]
    constructor
    · intro hopens
      cases hopens with
      | inl hnil => rw [hnil.1]
      | inr hmore =>
          obtain ⟨begun, _, _, hcontinues⟩ := hmore
          simp [continuesName] at hcontinues
    · intro heq
      cases heq
      exact .inl ⟨rfl, rfl⟩

theorem Scanned.name {s name : List Char} {c : Char} (h : Scanned s (some name))
    (hc : continuesName name c = true) : Scanned (s ++ [c]) (some (name ++ [c])) := by
  constructor
  · refine isLiteral_concat.mpr ⟨h.literal, fun hbrace => ?_⟩
    subst hbrace
    simp [continuesName] at hc
  · intro other
    rw [opens_concat]
    simp only [h.opened, Option.some.injEq]
    constructor
    · intro hopens
      cases hopens with
      | inl hnil =>
          obtain ⟨_, rfl⟩ := hnil
          simp [continuesName] at hc
      | inr hmore =>
          obtain ⟨_, rfl, rfl, _⟩ := hmore
          rfl
    · intro heq
      exact .inr ⟨name, heq.symm, rfl, hc⟩

theorem Scanned.other {s : List Char} {state : Option (List Char)} {c : Char}
    (h : Scanned s state) (hbrace : c ≠ '\x7b')
    (hcontinues : ∀ name, state = some name → continuesName name c = false)
    (hcloses : c = '\x7d' → ∀ name, state = some name → name = []) :
    Scanned (s ++ [c]) none := by
  constructor
  · refine isLiteral_concat.mpr ⟨h.literal, fun hc name hopens => ?_⟩
    exact hcloses hc name ((h.opened name).mp hopens)
  · intro name
    rw [opens_concat]
    simp only [h.opened, reduceCtorEq, iff_false, not_or, not_exists, not_and]
    refine ⟨fun _ => hbrace, fun begun _ hstate => ?_⟩
    rw [hcontinues begun hstate]
    exact Bool.false_ne_true

/-- The text that the state of a scan stands for. -/
def scannedText (literal : List Char) : Option (List Char) → List Char
  | none => literal.reverse
  | some name => literal.reverse ++ '\x7b' :: name.reverse

theorem scannedText_brace (literal name : List Char) :
    scannedText (name ++ '\x7b' :: literal) none = scannedText literal (some name) := by
  simp [scannedText]

theorem continuesName_reverse (name : List Char) (c : Char) :
    continuesName name.reverse c = continuesName name c := by
  simp [continuesName]

theorem IsLiteral.of_part {s t : List Char} (h : IsLiteral t) (hst : s <:+: t) :
    IsLiteral s :=
  fun name hname hplaceholder => h name hname (hplaceholder.trans hst)

/-- Every hole that is cut has a name, and neither what stands before it nor what is left at
the end holds a placeholder. -/
theorem cut_spec (literal : List Char) (state : Option (List Char)) (cs : List Char)
    (h : Scanned (scannedText literal state) (state.map List.reverse)) :
    (∀ hole ∈ (cut literal state cs).1, IsName hole.name ∧ IsLiteral hole.before) ∧
      IsLiteral (cut literal state cs).2 := by
  fun_induction cut literal state cs with
  | case1 literal => exact ⟨List.forall_mem_nil _, h.literal⟩
  | case2 literal name =>
      rw [← scannedText_brace] at h
      exact ⟨List.forall_mem_nil _, h.literal⟩
  | case3 literal cs ih => exact ih h.brace
  | case4 literal c cs hbrace ih =>
      apply ih
      have hscanned := h.other hbrace (fun _ heq => by cases heq) (fun _ _ heq => by cases heq)
      rwa [scannedText, ← List.reverse_cons] at hscanned
  | case5 literal name c cs hcloses holes rest hcut ih =>
      have hrest := ih scanned_nil
      rw [hcut] at hrest
      have hname : IsName name.reverse := by
        have hopens : Opens _ name.reverse := (h.opened name.reverse).mpr rfl
        exact hopens.1.resolve_left fun hnil => hcloses.2 (List.reverse_eq_nil_iff.mp hnil)
      have hliteral : IsLiteral literal.reverse :=
        h.literal.of_part (List.prefix_append _ _).isInfix
      exact ⟨List.forall_mem_cons.mpr ⟨⟨hname, hliteral⟩, hrest.1⟩, hrest.2⟩
  | case6 literal name c cs _ hcontinues ih =>
      apply ih
      rw [← continuesName_reverse] at hcontinues
      have hscanned := h.name hcontinues
      rw [← List.reverse_cons] at hscanned
      simpa only [scannedText, List.append_assoc, List.cons_append, List.reverse_cons,
        Option.map_some] using hscanned
  | case7 literal name cs _ _ ih =>
      apply ih
      have hscanned := h.brace
      rwa [← scannedText_brace] at hscanned
  | case8 literal name c cs hcloses hcontinues hbrace ih =>
      apply ih
      rw [← continuesName_reverse, Bool.not_eq_true] at hcontinues
      have hscanned : Scanned (scannedText literal (some name) ++ [c]) none := by
        apply h.other hbrace
        · intro other heq
          cases heq
          exact hcontinues
        · intro hc other heq
          cases heq
          rw [not_and_or, not_not] at hcloses
          rw [hcloses.resolve_left (not_not.mpr hc)]
          rfl
      rw [← scannedText_brace] at hscanned
      rwa [scannedText, ← List.reverse_cons] at hscanned

theorem text_eq (h : Hole) : h.text = h.before ++ placeholder h.name := by
  simp only [Hole.text, placeholder, List.append_assoc]

theorem decomposes_cut (t : Template) : Decomposes t.pattern.toList t.holes t.ending := by
  obtain ⟨hholes, hending⟩ := cut_spec [] none t.pattern.toList scanned_nil
  refine ⟨?_, fun h hh => (hholes h hh).1, fun h hh => (hholes h hh).2, hending⟩
  simp only [← text_eq]
  exact t.holes_append_ending

/-- A name holds no braces. -/
theorem IsName.ne_brace {name : List Char} (h : IsName name) :
    ∀ c ∈ name, c ≠ '\x7b' ∧ c ≠ '\x7d' := by
  have hword : ∀ c ∈ name, c.isAlphanum = true ∨ c = '_' := by
    cases name with
    | nil => exact List.forall_mem_nil _
    | cons first rest =>
        refine List.forall_mem_cons.mpr ⟨h.1.imp_left fun halpha => ?_, h.2⟩
        rw [Char.isAlphanum, halpha, Bool.true_or]
  intro c hc
  cases hword c hc with
  | inl hword => constructor <;> rintro rfl <;> exact absurd hword (by decide)
  | inr hunderscore => rw [hunderscore]; decide

theorem eq_of_closed {s t rest rest' : List Char} (hs : '\x7d' ∉ s) (ht : '\x7d' ∉ t)
    (h : s ++ '\x7d' :: rest = t ++ '\x7d' :: rest') : s = t ∧ rest = rest' := by
  induction s generalizing t with
  | nil =>
      cases t with
      | nil => exact ⟨rfl, (List.cons.inj h).2⟩
      | cons b t => exact absurd ((List.cons.inj h).1 ▸ List.mem_cons_self) ht
  | cons a s ih =>
      cases t with
      | nil => exact absurd ((List.cons.inj h).1 ▸ List.mem_cons_self) hs
      | cons b t =>
          obtain ⟨hfirst, hrest⟩ := List.cons.inj h
          obtain ⟨hst, hends⟩ := ih (List.not_mem_of_not_mem_cons hs)
            (List.not_mem_of_not_mem_cons ht) hrest
          exact ⟨hfirst ▸ hst ▸ rfl, hends⟩

/-- A placeholder cannot start inside of another one, nor behind one in a literal. -/
theorem eq_nil_of_placeholder {literal name name' between rest rest' : List Char}
    (hliteral : IsLiteral (literal ++ between)) (hname : IsName name)
    (h : placeholder name ++ rest = between ++ (placeholder name' ++ rest')) : between = [] := by
  cases List.append_eq_append_iff.mp h with
  | inl hwhole =>
      obtain ⟨more, hbetween, _⟩ := hwhole
      rw [hbetween, ← List.append_assoc] at hliteral
      exact absurd (List.infix_append _ _ _) (hliteral name hname)
  | inr hpart =>
      obtain ⟨more, hsplit, hrest⟩ := hpart
      cases more with
      | nil =>
          rw [List.append_nil] at hsplit
          rw [← hsplit] at hliteral
          exact absurd (List.suffix_append _ _).isInfix (hliteral name hname)
      | cons brace more =>
          obtain ⟨rfl, _⟩ := List.cons.inj hrest
          cases between with
          | nil => rfl
          | cons first between =>
              have hinner : name ++ ['\x7d'] = between ++ '\x7b' :: more :=
                (List.cons.inj hsplit).2
              have hmem : '\x7b' ∈ name ++ ['\x7d'] := by
                rw [hinner]
                exact List.mem_append_right between List.mem_cons_self
              cases List.mem_append.mp hmem with
              | inl hmem => exact absurd rfl (hname.ne_brace _ hmem).1
              | inr hmem => exact absurd (List.mem_singleton.mp hmem) (by decide)

/-- The first placeholder of a text and the literal before it are what they are. -/
theorem first_placeholder_unique {literal literal' name name' rest rest' : List Char}
    (hliteral : IsLiteral literal) (hliteral' : IsLiteral literal') (hname : IsName name)
    (hname' : IsName name')
    (h : literal ++ (placeholder name ++ rest) = literal' ++ (placeholder name' ++ rest')) :
    literal = literal' ∧ name = name' ∧ rest = rest' := by
  have hsame : literal = literal' := by
    cases List.append_eq_append_iff.mp h with
    | inl hmore =>
        obtain ⟨between, rfl, hrest⟩ := hmore
        rw [eq_nil_of_placeholder hliteral' hname hrest, List.append_nil]
    | inr hmore =>
        obtain ⟨between, rfl, hrest⟩ := hmore
        rw [eq_nil_of_placeholder hliteral hname' hrest, List.append_nil]
  rw [hsame] at h
  have hinner : name ++ '\x7d' :: rest = name' ++ '\x7d' :: rest' := by
    simpa [placeholder] using List.append_cancel_left h
  exact ⟨hsame, eq_of_closed (fun hmem => (hname.ne_brace _ hmem).2 rfl)
    (fun hmem => (hname'.ne_brace _ hmem).2 rfl) hinner⟩

theorem Decomposes.cons_inv {pattern ending : List Char} {hole : Hole} {holes : List Hole}
    (h : Decomposes pattern (hole :: holes) ending) :
    ∃ rest, pattern = hole.before ++ (placeholder hole.name ++ rest) ∧
      Decomposes rest holes ending := by
  refine ⟨holes.flatMap (fun h => h.before ++ placeholder h.name) ++ ending, ?_, rfl, ?_, ?_,
    h.ending⟩
  · rw [← h.text, List.flatMap_cons, List.append_assoc, List.append_assoc]
  · exact (List.forall_mem_cons.mp h.names).2
  · exact (List.forall_mem_cons.mp h.literals).2

/-- A text without placeholders is not one with a hole. -/
theorem Decomposes.not_literal {pattern ending : List Char} {hole : Hole} {holes : List Hole}
    (h : Decomposes pattern (hole :: holes) ending) : ¬ IsLiteral pattern := by
  intro hliteral
  obtain ⟨rest, rfl, _⟩ := h.cons_inv
  have hname : IsName hole.name := h.names hole List.mem_cons_self
  refine hliteral hole.name hname ?_
  rw [← List.append_assoc]
  exact List.infix_append _ _ _

theorem Decomposes.unique {pattern ending ending' : List Char} {holes holes' : List Hole}
    (h : Decomposes pattern holes ending) (h' : Decomposes pattern holes' ending') :
    holes = holes' ∧ ending = ending' := by
  induction holes generalizing pattern holes' with
  | nil =>
      have hpattern : ending = pattern := h.text
      cases holes' with
      | nil => exact ⟨rfl, hpattern.trans h'.text.symm⟩
      | cons hole' holes' => exact absurd (hpattern ▸ h.ending) h'.not_literal
  | cons hole holes ih =>
      cases holes' with
      | nil =>
          have hpattern : ending' = pattern := h'.text
          exact absurd (hpattern ▸ h'.ending) h.not_literal
      | cons hole' holes' =>
          obtain ⟨rest, hpattern, hrest⟩ := h.cons_inv
          obtain ⟨rest', hpattern', hrest'⟩ := h'.cons_inv
          obtain ⟨hbefore, hname, rfl⟩ := first_placeholder_unique
            (h.literals _ List.mem_cons_self) (h'.literals _ List.mem_cons_self)
            (h.names _ List.mem_cons_self) (h'.names _ List.mem_cons_self)
            (hpattern.symm.trans hpattern')
          obtain ⟨hholes, hending⟩ := ih hrest hrest'
          obtain ⟨before, name⟩ := hole
          obtain ⟨before', name'⟩ := hole'
          cases hbefore
          cases hname
          exact ⟨congrArg (_ :: ·) hholes, hending⟩

/-- With the text of each placeholder filled in for it, nothing changes. -/
theorem render_of_same (t : Template) {context : Context}
    (h : ∀ hole ∈ t.holes, context.lookup (String.ofList hole.name) =
      some (.str (String.ofList (placeholder hole.name)))) : t.render context = t.pattern := by
  have hholes : t.holes.flatMap
      (fun hole => hole.before ++ display (context.lookup (String.ofList hole.name))) =
      t.holes.flatMap Hole.text := by
    refine List.flatMap_congr fun hole hmem => ?_
    rw [h hole hmem, text_eq]
    exact congrArg (hole.before ++ ·) String.toList_ofList
  rw [render, hholes, t.holes_append_ending, String.ofList_toList]

/-- A pattern is made of literals and placeholders in exactly one way. A template fills in the
placeholders of that decomposition, all of them and nothing else. -/
theorem render_decomposition (t : Template) :
    ∃ holes ending, Decomposes t.pattern.toList holes ending ∧
      (∀ holes' ending', Decomposes t.pattern.toList holes' ending' →
        holes' = holes ∧ ending' = ending) ∧
      t.placeholders = holes.map (fun hole => String.ofList hole.name) ∧
      (∀ context : Context, (t.render context).toList =
        holes.flatMap (fun hole =>
          hole.before ++ display (context.lookup (String.ofList hole.name))) ++ ending) ∧
      (display none = [] ∧ display (some .null) = [] ∧
        ∀ v, v ≠ .null → display (some v) = v.plain) ∧
      ∀ context : Context, (∀ hole ∈ holes, context.lookup (String.ofList hole.name) =
        some (.str (String.ofList (placeholder hole.name)))) → t.render context = t.pattern := by
  refine ⟨t.holes, t.ending, decomposes_cut t, ?_, rfl, ?_, ⟨rfl, rfl, ?_⟩, ?_⟩
  · intro holes' ending' h'
    exact h'.unique (decomposes_cut t)
  · intro context
    rw [render, String.toList_ofList]
  · intro v hv
    cases v with
    | null => exact absurd rfl hv
    | bool _ | num _ | str _ | arr _ | obj _ => rfl
  · exact fun context => t.render_of_same

/-- Two holes for one column, among braces that belong to no placeholder. -/
def nestedBraces : Template := ⟨"\x7ba\x7bb\x7d-\x7bb\x7d\x7d"⟩

def nestedHoles : List Hole := [⟨['\x7b', 'a'], ['b']⟩, ⟨['-'], ['b']⟩]

/-- What is filled in may look like a placeholder and stays as it is. Values that are no text
are filled in as they are displayed. -/
theorem render_decomposition_nestedBraces :
    Decomposes nestedBraces.pattern.toList nestedHoles ['\x7d'] ∧
      nestedBraces.placeholders = ["b", "b"] ∧
      (nestedBraces.render (.ofRow [("b", .int (-7))])).toList = "\x7ba-7--7\x7d".toList ∧
      (nestedBraces.render (.ofRow [("b", .arr [.bool true, .null])])).toList =
        "\x7ba[true,null]-[true,null]\x7d".toList ∧
      (nestedBraces.render (.ofRow [("a", .int 1), ("b", .str "\x7ba\x7d")])).toList =
        "\x7ba\x7ba\x7d-\x7ba\x7d\x7d".toList ∧
      nestedBraces.render (.ofRow [("b", .str "\x7bb\x7d")]) = nestedBraces.pattern := by
  obtain ⟨holes, ending, hcut, hunique, hnames, hrender, _, hsame⟩ :=
    render_decomposition nestedBraces
  have hknown : Decomposes nestedBraces.pattern.toList nestedHoles ['\x7d'] :=
    decomposes_cut nestedBraces
  obtain ⟨rfl, rfl⟩ := hunique _ _ hknown
  refine ⟨hcut, hnames.trans rfl, (hrender _).trans rfl, (hrender _).trans rfl,
    (hrender _).trans rfl, hsame _ ?_⟩
  exact List.forall_mem_cons.mpr ⟨rfl, List.forall_mem_singleton.mpr rfl⟩

end RowShape.Template
