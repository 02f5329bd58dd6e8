import Mathlib.Data.List.Infix
import RowShape.Field

/-!
Splitting at a delimiter. The pieces of a text are what lies between the occurrences of the
delimiter, each of them the leftmost behind the one before; joined again they are the text.
-/

namespace RowShape

/-- No delimiter starts among the first characters of a text. -/
def FreeBefore (delimiter s : List Char) (count : Nat) : Prop :=
  ∀ before after, s = before ++ (delimiter ++ after) → count ≤ before.length

/-- The pieces of a text, each of them up to the leftmost delimiter of what is left. -/
inductive Cuts (delimiter : List Char) : List Char → List (List Char) → Prop where
  | last {s : List Char} (h : ¬ delimiter <:+: s) : Cuts delimiter s [s]
  | cut {piece rest : List Char} {pieces : List (List Char)}
      (hleftmost : FreeBefore delimiter (piece ++ (delimiter ++ rest)) piece.length)
      (hrest : Cuts delimiter rest pieces) :
      Cuts delimiter (piece ++ (delimiter ++ rest)) (piece :: pieces)

section
variable {delimiter : List Char}

theorem not_infix_of_freeBefore (hne : delimiter ≠ []) {s : List Char}
    (h : FreeBefore delimiter s s.length) : ¬ delimiter <:+: s := by
  intro hoccurs
  obtain ⟨before, after, heq⟩ := hoccurs
  rw [List.append_assoc] at heq
  have hstart := h before after heq.symm
  rw [← heq, List.length_append, List.length_append] at hstart
  have hlength := List.length_pos_iff.mpr hne
  omega

theorem FreeBefore.next {piece cs : List Char} {c : Char}
    (h : FreeBefore delimiter (piece ++ c :: cs) piece.length)
    (hstarts : ¬ delimiter <+: c :: cs) :
    FreeBefore delimiter (piece ++ c :: cs) (piece.length + 1) := by
  intro before after heq
  have hstart := h before after heq
  by_contra hlt
  have hlength : piece.length = before.length := by omega
  obtain ⟨_, hrest⟩ := List.append_inj heq hlength
  exact hstarts ⟨after, hrest.symm⟩

theorem drop_delimiter (hne : delimiter ≠ []) {c : Char} {cs rest : List Char}
    (h : delimiter ++ rest = c :: cs) : cs.drop (delimiter.length - 1) = rest := by
  obtain ⟨first, more, rfl⟩ := List.exists_cons_of_ne_nil hne
  obtain ⟨_, rfl⟩ := List.cons.inj h
  exact List.drop_left

/-- A scan that has read a piece without a delimiter cuts that piece and the rest. -/
theorem splitFrom_cuts (hne : delimiter ≠ []) (skip : Nat) (piece s : List Char)
    (h : FreeBefore delimiter (piece.reverse ++ s.drop skip) piece.length) :
    Cuts delimiter (piece.reverse ++ s.drop skip) (splitFrom delimiter skip piece s) := by
  fun_induction splitFrom delimiter skip piece s with
  | case1 skip piece =>
      rw [List.drop_nil, List.append_nil] at h ⊢
      exact .last (not_infix_of_freeBefore hne (by rwa [List.length_reverse]))
  | case2 skip piece c cs ih => exact ih h
  | case3 piece c cs hstarts ih =>
      obtain ⟨rest, hrest⟩ := List.isPrefixOf_iff_prefix.mp hstarts
      rw [drop_delimiter hne hrest] at ih
      rw [List.drop_zero, ← hrest] at h ⊢
      exact .cut (by rwa [List.length_reverse]) (ih fun before after _ => Nat.zero_le _)
  | case4 piece c cs hstarts ih =>
      rw [List.isPrefixOf_iff_prefix] at hstarts
      rw [← List.length_reverse] at h
      have hnext := FreeBefore.next h hstarts
      rw [List.reverse_cons, List.append_assoc, List.length_cons] at ih
      rw [List.length_reverse] at hnext
      exact ih hnext

theorem splitOn_cuts (hne : delimiter ≠ []) (s : List Char) :
    Cuts delimiter s (splitOn delimiter s) :=
  splitFrom_cuts hne 0 [] s fun _ _ _ => Nat.zero_le _

namespace Cuts

variable {s : List Char} {pieces : List (List Char)}

theorem ne_nil (h : Cuts delimiter s pieces) : pieces ≠ [] := by
  cases h with
  | last _ | cut _ _ => exact List.cons_ne_nil _ _

theorem intercalate (h : Cuts delimiter s pieces) : delimiter.intercalate pieces = s := by
  induction h with
  | last _ => exact List.intercalate_singleton
  | cut _ hrest ih =>
      rw [List.intercalate_cons_of_ne_nil hrest.ne_nil, ih, List.append_assoc]

theorem pieces_free (hne : delimiter ≠ []) (h : Cuts delimiter s pieces) :
    ∀ piece ∈ pieces, ¬ delimiter <:+: piece := by
  induction h with
  | last h => exact List.forall_mem_singleton.mpr h
  | @cut piece rest _ hleftmost _ ih =>
      refine List.forall_mem_cons.mpr ⟨fun hoccurs => ?_, ih⟩
      obtain ⟨before, after, rfl⟩ := hoccurs
      have hstart := hleftmost before (after ++ (delimiter ++ rest)) (by simp)
      have hlength := List.length_pos_iff.mpr hne
      simp only [List.length_append] at hstart
      omega

/-- A text is cut in one way only. -/
theorem unique (h : Cuts delimiter s pieces) {others : List (List Char)}
    (h' : Cuts delimiter s others) : pieces = others := by
  induction h generalizing others with
  | last hfree =>
      cases h' with
      | last _ => rfl
      | cut _ _ => exact absurd ⟨_, _, List.append_assoc _ _ _⟩ hfree
  | @cut piece rest pieces hleftmost _ ih =>
      generalize hs : piece ++ (delimiter ++ rest) = s at h' hleftmost
      cases h' with
      | last hfree => exact absurd ⟨piece, rest, (List.append_assoc _ _ _).trans hs⟩ hfree
      | @cut piece' rest' others hleftmost' hrest' =>
          have hlength : piece.length = piece'.length :=
            Nat.le_antisymm (hleftmost piece' rest' rfl) (hleftmost' piece rest hs.symm)
          obtain ⟨rfl, hends⟩ := List.append_inj hs hlength
          rw [List.append_cancel_left hends] at ih
          exact congrArg (piece :: ·) (ih hrest')

end Cuts

theorem freeBefore_of_not_mem {c : Char} {piece : List Char} (h : c ∉ piece)
    (rest : List Char) : FreeBefore [c] (piece ++ ([c] ++ rest)) piece.length := by
  intro before after heq
  cases List.append_eq_append_iff.mp heq with
  | inl hbehind =>
      obtain ⟨more, rfl, _⟩ := hbehind
      rw [List.length_append]
      exact Nat.le_add_right _ _
  | inr hwithin =>
      obtain ⟨more, rfl, hrest⟩ := hwithin
      cases more with
      | nil => rw [List.append_nil]
      | cons first more =>
          obtain ⟨rfl, _⟩ := List.cons.inj hrest
          exact absurd (List.mem_append_right before List.mem_cons_self) h

/-- Pieces without a delimiter of one character are cut where they were joined. -/
theorem cuts_intercalate {c : Char} {pieces : List (List Char)} (hne : pieces ≠ [])
    (hfree : ∀ piece ∈ pieces, c ∉ piece) : Cuts [c] ([c].intercalate pieces) pieces := by
  induction pieces with
  | nil => exact absurd rfl hne
  | cons piece rest ih =>
      obtain ⟨hpiece, hrest⟩ := List.forall_mem_cons.mp hfree
      cases rest with
      | nil =>
          rw [List.intercalate_singleton]
          exact .last fun hoccurs => hpiece (hoccurs.subset (List.mem_singleton_self c))
      | cons next more =>
          rw [List.intercalate_cons_cons, List.append_assoc]
          exact .cut (freeBefore_of_not_mem hpiece _) (ih (List.cons_ne_nil _ _) hrest)

end

theorem splitOn_intercalate {c : Char} {pieces : List (List Char)} (hne : pieces ≠ [])
    (hfree : ∀ piece ∈ pieces, c ∉ piece) : splitOn [c] ([c].intercalate pieces) = pieces :=
  (splitOn_cuts (List.cons_ne_nil c []) _).unique (cuts_intercalate hne hfree)

theorem splitOn_of_not_mem {c : Char} {s : List Char} (h : c ∉ s) : splitOn [c] s = [s] :=
  (splitOn_cuts (List.cons_ne_nil c []) s).unique
    (.last fun hoccurs => h ((List.singleton_infix_iff c s).mp hoccurs))

theorem splitFrom_append (c : Char) (piece s t : List Char) :
    splitFrom [c] 0 piece (s ++ c :: t) = splitFrom [c] 0 piece s ++ splitFrom [c] 0 [] t := by
  induction s generalizing piece with
  | nil => simp [splitFrom]
  | cons d ds ih =>
      simp only [List.cons_append, splitFrom, List.isPrefixOf_cons_cons, List.isPrefixOf_nil_left,
        Bool.and_true, beq_iff_eq]
      split
      · exact congrArg (piece.reverse :: ·) (ih [])
      · exact ih (d :: piece)

/-- A delimiter of one character cuts where it stands, whatever is around it. -/
theorem splitOn_append (c : Char) (s t : List Char) :
    splitOn [c] (s ++ c :: t) = splitOn [c] s ++ splitOn [c] t :=
  splitFrom_append c [] s t

/-- The array of some texts. -/
def textItems (pieces : List (List Char)) : Json :=
  .arr (pieces.map fun piece => .str (String.ofList piece))

theorem splitText_eq {v : Json} (harray : ∀ items, v ≠ .arr items) (delimiter : List Char) :
    splitText delimiter v =
      if v.plain = [] then textItems []
      else if delimiter = [] then textItems [v.plain]
      else textItems (splitOn delimiter v.plain) := by
  cases v with
  | arr items => exact absurd rfl (harray items)
  | null | bool _ | num _ | str _ | obj _ =>
      simp only [splitText, List.isEmpty_iff, textItems, List.map_nil, List.map_cons]

namespace Field

theorem apply_keyed {context : Context} {key : String} {v : Json}
    (hv : context.lookup key = some v) (hnull : v ≠ .null) (t : Transform) :
    (Field.keyed key t).apply context = t.apply context v := by
  cases v with
  | null => exact absurd rfl hnull
  | bool _ | num _ | str _ | arr _ | obj _ => simp only [Field.apply, hv]

/-- The `csv` transform passes arrays on and splits the text of any other value without loss;
it takes texts apart where they were joined if the delimiter is a character that none of them
holds. -/
theorem apply_csv (context : Context) (key : String) :
    (∀ v, context.lookup key = some v → v ≠ .null → ∀ delimiter : String,
      let outcome := (Field.keyed key (.csv delimiter)).apply context
      (∀ items, v = .arr items → outcome = .ok v) ∧
      ((∀ items, v ≠ .arr items) →
        (v.plain = [] → outcome = .ok (.arr [])) ∧
        (v.plain ≠ [] → delimiter = "" → outcome = .ok (textItems [v.plain])) ∧
        (v.plain ≠ [] → delimiter ≠ "" → ∃ pieces, outcome = .ok (textItems pieces) ∧
          pieces ≠ [] ∧ delimiter.toList.intercalate pieces = v.plain ∧
          (∀ piece ∈ pieces, ¬ delimiter.toList <:+: piece) ∧
          Cuts delimiter.toList v.plain pieces))) ∧
    ∀ (c : Char) (pieces : List (List Char)), pieces ≠ [] → (∀ piece ∈ pieces, c ∉ piece) →
      [c].intercalate pieces ≠ [] →
      context.lookup key = some (.str (String.ofList ([c].intercalate pieces))) →
        (Field.keyed key (.csv (String.ofList [c]))).apply context = .ok (textItems pieces) := by
  constructor
  · intro v hv hnull delimiter outcome
    have houtcome : outcome = .ok (splitText delimiter.toList v) := apply_keyed hv hnull _
    refine ⟨?_, fun harray => ?_⟩
    · intro items harray
      rw [houtcome, harray]
      rfl
    · rw [splitText_eq harray] at houtcome
      refine ⟨fun hempty => ?_, fun htext hnone => ?_, fun htext hsome => ?_⟩
      · rw [houtcome, if_pos hempty]
        rfl
      · rw [houtcome, if_neg htext, if_pos (String.toList_eq_nil_iff.mpr hnone)]
      · have hne : delimiter.toList ≠ [] := fun hnil => hsome (String.toList_eq_nil_iff.mp hnil)
        have hcuts := splitOn_cuts hne v.plain
        rw [if_neg htext, if_neg hne] at houtcome
        exact ⟨_, houtcome, hcuts.ne_nil, hcuts.intercalate, hcuts.pieces_free hne, hcuts⟩
  · intro c pieces hne hfree htext hv
    generalize hjoined : Json.str (String.ofList ([c].intercalate pieces)) = v at hv
    have hplain : v.plain = [c].intercalate pieces := by
      rw [← hjoined]
      exact String.toList_ofList
    have harray : ∀ items, v ≠ .arr items := by
      rw [← hjoined]
      nofun
    have hnull : v ≠ .null := by
      rw [← hjoined]
      nofun
    calc (Field.keyed key (.csv (String.ofList [c]))).apply context
        = .ok (splitText (String.ofList [c]).toList v) := apply_keyed hv hnull _
      _ = .ok (textItems (splitOn [c] ([c].intercalate pieces))) := by
          rw [splitText_eq harray, hplain, String.toList_ofList, if_neg htext,
            if_neg (List.cons_ne_nil c [])]
      _ = .ok (textItems pieces) := by rw [splitOn_intercalate hne hfree]

/-- A delimiter that overlaps itself, a number and a boolean cut in their texts, and a list
with empty texts at both ends. -/
theorem apply_csv_overlap :
    let context : Context := .ofRow
      [("tags", .str "aXXXb"), ("code", .int 10203), ("hidden", .bool true),
        ("path", .str "|x||y|")]
    (Field.keyed "tags" (.csv "XX")).apply context = .ok (textItems [['a'], ['X', 'b']]) ∧
      (Field.keyed "code" (.csv "0")).apply context = .ok (textItems [['1'], ['2'], ['3']]) ∧
      (Field.keyed "hidden" (.csv "ru")).apply context = .ok (textItems [['t'], ['e']]) ∧
      (Field.keyed "path" (.csv "|")).apply context =
        .ok (textItems [[], ['x'], [], ['y'], []]) := by
  intro context
  -- A value that is no array, taken apart as its text is.
  have split : ∀ (key : String) (v : Json) (delimiter : String), context.lookup key = some v →
      v ≠ .null → (∀ items, v ≠ .arr items) → v.plain ≠ [] → delimiter ≠ "" →
      (Field.keyed key (.csv delimiter)).apply context =
        .ok (textItems (splitOn delimiter.toList v.plain)) := by
    intro key v delimiter hv hnull harray htext hsome
    obtain ⟨_, hsplit⟩ := (apply_csv context key).1 v hv hnull delimiter
    obtain ⟨pieces, houtcome, _, _, _, hcuts⟩ := (hsplit harray).2.2 htext hsome
    have hne : delimiter.toList ≠ [] := fun hnil => hsome (String.toList_eq_nil_iff.mp hnil)
    rw [houtcome, hcuts.unique (splitOn_cuts hne v.plain)]
  refine ⟨?tags, ?code, ?hidden, ?path⟩
  case tags => exact split "tags" (.str "aXXXb") "XX" rfl nofun nofun (by decide) (by decide)
  case code => exact split "code" (.int 10203) "0" rfl nofun nofun (by decide) (by decide)
  case hidden => exact split "hidden" (.bool true) "ru" rfl nofun nofun (by decide) (by decide)
  case path =>
    exact (apply_csv context "path").2 '|' [[], ['x'], [], ['y'], []] (by decide) (by decide)
      (by decide) rfl

end Field

end RowShape
