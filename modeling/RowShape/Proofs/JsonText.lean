import RowShape.Json.Reader
import RowShape.Json.Writer
import RowShape.Proofs.Basic
import RowShape.Proofs.Digits
import RowShape.Proofs.Rows

/-!
JSON text reads back. A value without floating numbers is written as tokens, the scan finds
these tokens again, and the machine that reads them comes to the value, as long as it does
not nest deeper than the limit.
-/

namespace RowShape.Json

/-- What texts and rows can hold: integers of 64 bits, and objects that name nothing twice. -/
inductive WellFormed : Json → Prop where
  | null : WellFormed .null
  | bool (b : Bool) : WellFormed (.bool b)
  | int {i : Int} (h : int64Min ≤ i ∧ i ≤ uint64Max) : WellFormed (.num (.int i))
  | float (f : Finite) : WellFormed (.num (.float f))
  | str (s : String) : WellFormed (.str s)
  | arr {items : List Json} (h : ∀ v ∈ items, WellFormed v) : WellFormed (.arr items)
  | obj {members : Row} (hnames : (members.map (·.1)).Nodup)
      (h : ∀ m ∈ members, WellFormed m.2) : WellFormed (.obj members)

/-- No floating number at any depth. -/
inductive FloatFree : Json → Prop where
  | null : FloatFree .null
  | bool (b : Bool) : FloatFree (.bool b)
  | int (i : Int) : FloatFree (.num (.int i))
  | str (s : String) : FloatFree (.str s)
  | arr {items : List Json} (h : ∀ v ∈ items, FloatFree v) : FloatFree (.arr items)
  | obj {members : Row} (h : ∀ m ∈ members, FloatFree m.2) : FloatFree (.obj members)

/-- At most so many arrays and objects inside each other. -/
inductive NestedWithin : Nat → Json → Prop where
  | null (n : Nat) : NestedWithin n .null
  | bool (n : Nat) (b : Bool) : NestedWithin n (.bool b)
  | num (n : Nat) (x : Number) : NestedWithin n (.num x)
  | str (n : Nat) (s : String) : NestedWithin n (.str s)
  | arr {n : Nat} {items : List Json} (h : ∀ v ∈ items, NestedWithin n v) :
      NestedWithin (n + 1) (.arr items)
  | obj {n : Nat} {members : Row} (h : ∀ m ∈ members, NestedWithin n m.2) :
      NestedWithin (n + 1) (.obj members)

mutual

/-- The tokens that a value is written with. -/
def tokens : Json → List Token
  | .str s => [.text s]
  | .arr items => .openArray :: itemTokens items
  | .obj members => .openObject :: memberTokens members
  | v => [.scalar v]
termination_by structural v => v

def itemTokens : List Json → List Token
  | [] => [.closeArray]
  | [v] => v.tokens ++ [.closeArray]
  | v :: rest => v.tokens ++ .comma :: itemTokens rest
termination_by structural items => items

def memberTokens : List (String × Json) → List Token
  | [] => [.closeObject]
  | [(name, v)] => .text name :: .colon :: v.tokens ++ [.closeObject]
  | (name, v) :: rest => .text name :: .colon :: v.tokens ++ .comma :: memberTokens rest
termination_by structural members => members

end

/-- A character that may stand outside quotes and is no punctuation. -/
def IsBare (c : Char) : Prop :=
  Token.isSpace c = false ∧ c ≠ '"' ∧ Token.ofPunctuation? c = none

instance (c : Char) : Decidable (IsBare c) := inferInstanceAs (Decidable (_ ∧ _ ∧ _))

/-- A text at which a bare run ends. -/
inductive EndsRun : List Char → Prop where
  | nil : EndsRun []
  | punctuation {c : Char} {t : Token} (h : Token.ofPunctuation? c = some t) (cs : List Char) :
      EndsRun (c :: cs)

theorem isSpace_of_punctuation {c : Char} {t : Token} (h : Token.ofPunctuation? c = some t) :
    Token.isSpace c = false := by
  unfold Token.ofPunctuation? at h
  split at h <;> first | rfl | cases h

theorem ne_quote_of_punctuation {c : Char} {t : Token} (h : Token.ofPunctuation? c = some t) :
    c ≠ '"' := by
  rintro rfl
  cases h

theorem scan_punctuation {c : Char} {t : Token} (h : Token.ofPunctuation? c = some t)
    (cs : List Char) : scan .between (c :: cs) = (scan .between cs).map (t :: ·) := by
  simp only [scan, isSpace_of_punctuation h, ne_quote_of_punctuation h, h, Bool.false_eq_true,
    ↓reduceIte]

theorem scan_bare {run : List Char} (hrun : ∀ c ∈ run, IsBare c) {past : List Char} {v : Json}
    (hv : Token.ofBare? (past.reverse ++ run) = some v) {rest : List Char} (hrest : EndsRun rest) :
    scan (.bare past) (run ++ rest) = (scan .between rest).map (.scalar v :: ·) := by
  -- What is read at the end is the reversed past with the rest of the run: no step changes it.
  induction run generalizing past with
  | nil =>
      rw [List.append_nil] at hv
      cases hrest with
      | nil => simp [scan, hv]
      | punctuation h cs =>
          rw [scan_punctuation h]
          simp only [List.nil_append, scan, isSpace_of_punctuation h, ne_quote_of_punctuation h, h,
            hv, Bool.false_eq_true, ↓reduceIte, Option.map_map]
          rfl
  | cons c cs ih =>
      obtain ⟨⟨hspace, hquote, hpunctuation⟩, hcs⟩ := List.forall_mem_cons.mp hrun
      simp only [List.cons_append, scan, hspace, hquote, hpunctuation, Bool.false_eq_true,
        ↓reduceIte]
      exact ih hcs (by simpa using hv)

theorem scan_scalar {run : List Char} (hne : run ≠ []) (hrun : ∀ c ∈ run, IsBare c) {v : Json}
    (hv : Token.ofBare? run = some v) {rest : List Char} (hrest : EndsRun rest) :
    scan .between (run ++ rest) = (scan .between rest).map (.scalar v :: ·) := by
  cases run with
  | nil => exact absurd rfl hne
  | cons c cs =>
      obtain ⟨⟨hspace, hquote, hpunctuation⟩, hcs⟩ := List.forall_mem_cons.mp hrun
      simp only [List.cons_append, scan, hspace, hquote, hpunctuation, Bool.false_eq_true,
        ↓reduceIte]
      exact scan_bare hcs (by simpa using hv) hrest

theorem hexValue?_hexDigit : ∀ n < 16, hexValue? (hexDigit n) = some n := by decide

/-- The code of a control character, read from its four digits. -/
theorem scan_controlEscape {c : Char} (hc : c.toNat < 0x20) (past rest : List Char) :
    scan (.text past)
        ('\\' :: 'u' :: '0' :: '0' :: hexDigit (c.toNat / 16) :: hexDigit (c.toNat % 16) :: rest) =
      scan (.text (c :: past)) rest := by
  have hhigh := hexValue?_hexDigit (c.toNat / 16) (by omega)
  have hlow := hexValue?_hexDigit (c.toNat % 16) (by omega)
  have hzero : hexValue? '0' = some 0 := rfl
  have hcode : 16 * (c.toNat / 16) + c.toNat % 16 = c.toNat := Nat.div_add_mod _ _
  have hunit : Mode.afterUnit past none c.toNat = some (.text (c :: past)) := by
    have hhalf : ¬ 0xD800 ≤ c.toNat ∧ ¬ 0xDC00 ≤ c.toNat := by omega
    simp [Mode.afterUnit, hhalf]
  simp [scan, Mode.insideText, hhigh, hlow, hzero, hcode, hunit]

theorem scan_plain {c : Char} (hquote : c ≠ '"') (hescape : c ≠ '\\') (hc : ¬ c.toNat < 0x20)
    (past rest : List Char) : scan (.text past) (c :: rest) = scan (.text (c :: past)) rest := by
  simp [scan, Mode.insideText, hquote, hescape, hc]

/-- An escaped character is scanned as that character. -/
theorem scan_escaped (c : Char) (past rest : List Char) :
    scan (.text past) (escaped c ++ rest) = scan (.text (c :: past)) rest := by
  unfold escaped
  split
  · next h => subst h; rfl
  split
  · next h => subst h; rfl
  split
  · next h => subst h; rfl
  split
  · next h => subst h; rfl
  split
  · next h => subst h; rfl
  split
  · next h => subst h; rfl
  split
  · next h => subst h; rfl
  split
  · next h => exact scan_controlEscape h past rest
  · next hquote hescape _ _ _ _ _ hc => exact scan_plain hquote hescape hc past rest

theorem scan_quoted (s rest : List Char) :
    scan .between (quoted s ++ rest) = (scan .between rest).map (.text (String.ofList s) :: ·) := by
  have htext (past : List Char) : scan (.text past) (s.flatMap escaped ++ '"' :: rest) =
      (scan .between rest).map (.text (String.ofList (past.reverse ++ s)) :: ·) := by
    induction s generalizing past with
    | nil => simp [scan]
    | cons c cs ih =>
        rw [List.flatMap_cons, List.append_assoc, scan_escaped, ih, List.reverse_cons,
          List.append_assoc, List.singleton_append]
  have hquoted : quoted s ++ rest = '"' :: (s.flatMap escaped ++ '"' :: rest) := by simp [quoted]
  rw [hquoted]
  exact htext []

theorem isBare_of_isAlphanum {c : Char} (h : c.isAlphanum = true) : IsBare c := by
  refine ⟨?_, ?_, ?_⟩
  · simp only [Token.isSpace, Bool.or_eq_false_iff, beq_eq_false_iff_ne]
    refine ⟨⟨⟨?_, ?_⟩, ?_⟩, ?_⟩ <;> rintro rfl <;> cases h
  · rintro rfl
    cases h
  · unfold Token.ofPunctuation?
    split <;> first | rfl | cases h

theorem scan_word {run : List Char} (hrun : run.all Char.isAlphanum = true) (hne : run ≠ [])
    {v : Json} (hv : Token.ofBare? run = some v) {rest : List Char} (hrest : EndsRun rest) :
    scan .between (run ++ rest) = (scan .between rest).map (.scalar v :: ·) :=
  scan_scalar hne (fun c hc => isBare_of_isAlphanum (List.all_eq_true.mp hrun c hc)) hv hrest

theorem mem_intText {i : Int} {c : Char} (hc : c ∈ intText i) : c = '-' ∨ c.isDigit = true := by
  unfold intText at hc
  split at hc
  · rcases List.mem_cons.mp hc with rfl | hc
    · exact .inl rfl
    · exact .inr (allDigits_natText _ c hc)
  · exact .inr (allDigits_natText _ c hc)

theorem isBare_intText (i : Int) : ∀ c ∈ intText i, IsBare c := by
  intro c hc
  rcases mem_intText hc with rfl | hdigit
  · exact ⟨rfl, by decide, rfl⟩
  · exact isBare_of_isAlphanum (by simp only [Char.isAlphanum, hdigit, Bool.or_true])

theorem intText_ne_nil (i : Int) : intText i ≠ [] := by
  unfold intText
  split
  · exact List.cons_ne_nil _ _
  · exact natText_ne_nil _

theorem scan_numeral {s digits : List Char} {sign : Option Char}
    (hsign : scanSign s = (sign, digits)) (hdigits : AllDigits digits) (hne : digits ≠ []) :
    Numeral.scan s = some (⟨sign, digits, none, none⟩, []) := by
  have hend : NoDigitNext [] := by intro c h; cases h
  have htake := hdigits.takeWhile_append hend
  have hdrop := hdigits.dropWhile_append hend
  rw [List.append_nil] at htake hdrop
  simp [Numeral.scan, hsign, htake, hdrop, scanFraction, Exponent.scan, hne]

/-- The sign of an integer's text, and its digits. -/
theorem scanSign_intText (i : Int) :
    scanSign (intText i) = (if i < 0 then some '-' else none, natText i.natAbs) := by
  unfold intText
  split
  · rfl
  · cases hdigits : natText i.natAbs with
    | nil => exact absurd hdigits (natText_ne_nil _)
    | cons d ds =>
        have hd : d.isDigit = true := allDigits_natText i.natAbs d (by simp [hdigits])
        simp [scanSign, isSign_of_isDigit hd]

theorem isNumber_natText {sign : Option Char} (hsign : sign ≠ some '+') (n : Nat) :
    Token.isNumber ⟨sign, natText n, none, none⟩ = true := by
  have hzero : (natText n).length = 1 ∨ (natText n).head? ≠ some '0' := by
    by_cases hn : n < 10
    · exact .inl (length_natText hn)
    · exact .inr (head?_natText (by omega))
  simpa [Token.isNumber, hsign, natText_ne_nil] using hzero

theorem ofNumeral?_intText {i : Int} (h : int64Min ≤ i ∧ i ≤ uint64Max) :
    Token.ofNumeral? ⟨if i < 0 then some '-' else none, natText i.natAbs, none, none⟩ =
      some (.int i) := by
  have hvalue : (if i < 0 then -(i.natAbs : Int) else i.natAbs) = i := by split <;> omega
  have hrange : (if i < 0 then 0 < i.natAbs && i.natAbs ≤ int64Min.natAbs
      else decide (i.natAbs ≤ uint64Max)) = true := by
    have hmin : int64Min.natAbs = 9223372036854775808 := rfl
    have hmax : uint64Max = 18446744073709551615 := rfl
    simp only [int64Min, uint64Max] at h
    split
    · rw [Bool.and_eq_true, decide_eq_true_eq, decide_eq_true_eq, hmin]
      omega
    · rw [decide_eq_true_eq, hmax]
      omega
  have hsign : ((if i < 0 then some '-' else none) == some '-') = decide (i < 0) := by
    split <;> simp_all
  simp only [Token.ofNumeral?, hsign, digitsValue_natText, decide_eq_true_eq, hrange, hvalue,
    Option.isNone_none, Bool.and_self, ↓reduceIte]

theorem ofBare?_intText {i : Int} (h : int64Min ≤ i ∧ i ≤ uint64Max) :
    Token.ofBare? (intText i) = some (.int i) := by
  have hletter {c : Char} {word : List Char} (hc : c ∈ word) (hsign : c ≠ '-')
      (hdigit : c.isDigit = false) : intText i ≠ word := by
    rintro rfl
    rcases mem_intText hc with hc | hc
    · exact hsign hc
    · rw [hdigit] at hc
      cases hc
  have hnull : intText i ≠ "null".toList := hletter (c := 'n') (by decide) (by decide) rfl
  have htrue : intText i ≠ "true".toList := hletter (c := 't') (by decide) (by decide) rfl
  have hfalse : intText i ≠ "false".toList := hletter (c := 'f') (by decide) (by decide) rfl
  have hscan := scan_numeral (scanSign_intText i) (allDigits_natText _) (natText_ne_nil _)
  have hnumber : Token.isNumber
      ⟨if i < 0 then some '-' else none, natText i.natAbs, none, none⟩ = true := by
    apply isNumber_natText
    split <;> decide
  simp only [Token.ofBare?, hnull, htrue, hfalse, hscan, hnumber, ↓reduceIte, ofNumeral?_intText h]

theorem scan_compactItems {items : List Json}
    (h : ∀ v ∈ items, ∀ rest, EndsRun rest →
      scan .between (v.compact ++ rest) = (scan .between rest).map (v.tokens ++ ·))
    (rest : List Char) : scan .between (compactItems items ++ rest) =
      (scan .between rest).map (itemTokens items ++ ·) := by
  induction items with
  | nil => exact scan_punctuation rfl rest
  | cons v others ih =>
      obtain ⟨hv, hothers⟩ := List.forall_mem_cons.mp h
      cases others with
      | nil =>
          have hclose : scan .between (']' :: rest) = _ := scan_punctuation rfl rest
          rw [compactItems, List.append_assoc, List.singleton_append,
            hv _ (.punctuation rfl rest), hclose, Option.map_map]
          simp only [itemTokens, Function.comp_def, List.append_assoc, List.singleton_append]
      | cons w others =>
          have hcomma (cs : List Char) : scan .between (',' :: cs) = _ := scan_punctuation rfl cs
          rw [compactItems, List.append_assoc, List.cons_append, hv _ (.punctuation rfl _), hcomma,
            ih hothers, Option.map_map, Option.map_map]
          · simp only [itemTokens, Function.comp_def, List.append_assoc, List.cons_append]
          · exact List.cons_ne_nil w others

theorem scan_compactMembers {members : Row}
    (h : ∀ m ∈ members, ∀ rest, EndsRun rest →
      scan .between (m.2.compact ++ rest) = (scan .between rest).map (m.2.tokens ++ ·))
    (rest : List Char) : scan .between (compactMembers members ++ rest) =
      (scan .between rest).map (memberTokens members ++ ·) := by
  induction members with
  | nil => exact scan_punctuation rfl rest
  | cons m others ih =>
      obtain ⟨name, v⟩ := m
      have hv : ∀ rest, EndsRun rest → scan .between (v.compact ++ rest) =
          (scan .between rest).map (v.tokens ++ ·) := (List.forall_mem_cons.mp h).1
      have hcolon (cs : List Char) : scan .between (':' :: cs) = _ := scan_punctuation rfl cs
      cases others with
      | nil =>
          have hlast := hv ('\x7d' :: rest) (.punctuation rfl rest)
          have hclose : scan .between ('\x7d' :: rest) = _ := scan_punctuation rfl rest
          simp only [compactMembers, List.append_assoc, List.cons_append, List.nil_append,
            scan_quoted, hcolon, hlast, hclose, Option.map_map]
          simp only [memberTokens, Function.comp_def, List.append_assoc, List.cons_append,
            List.nil_append, String.ofList_toList]
      | cons n others =>
          have hfirst (cs : List Char) := hv (',' :: cs) (.punctuation rfl cs)
          have hcomma (cs : List Char) : scan .between (',' :: cs) = _ := scan_punctuation rfl cs
          have hothers := ih (List.forall_mem_cons.mp h).2
          simp only [compactMembers, List.append_assoc, List.cons_append, scan_quoted, hcolon,
            hfirst, hcomma, hothers, Option.map_map]
          simp only [memberTokens, Function.comp_def, List.append_assoc, List.cons_append,
            String.ofList_toList]

/-- The tokens of a value are those that its text is scanned as. -/
theorem scan_compact {v : Json} (hwf : v.WellFormed) (hfree : v.FloatFree) {rest : List Char}
    (hrest : EndsRun rest) :
    scan .between (v.compact ++ rest) = (scan .between rest).map (v.tokens ++ ·) := by
  induction v using Json.induction generalizing rest with
  | null => exact scan_word rfl (List.cons_ne_nil _ _) rfl hrest
  | bool b => cases b <;> exact scan_word rfl (List.cons_ne_nil _ _) rfl hrest
  | num n =>
      cases hfree with
      | int i =>
          cases hwf with
          | int h =>
              exact scan_scalar (intText_ne_nil i) (isBare_intText i) (ofBare?_intText h) hrest
  | str s =>
      have hquoted := scan_quoted s.toList rest
      rwa [String.ofList_toList] at hquoted
  | arr items ih =>
      cases hwf with
      | arr hwf =>
          cases hfree with
          | arr hfree =>
              have hitems := scan_compactItems fun v hv rest => ih v hv (hwf v hv) (hfree v hv)
              have hopen (cs : List Char) : scan .between ('[' :: cs) = _ := scan_punctuation rfl cs
              rw [compact, List.cons_append, hopen, hitems, Option.map_map]
              rfl
  | obj members ih =>
      cases hwf with
      | obj _ hwf =>
          cases hfree with
          | obj hfree =>
              have hmembers := scan_compactMembers fun m hm rest => ih m hm (hwf m hm) (hfree m hm)
              have hopen (cs : List Char) : scan .between ('\x7b' :: cs) = _ :=
                scan_punctuation rfl cs
              rw [compact, List.cons_append, hopen, hmembers, Option.map_map]
              rfl

section
variable {limit : Nat} {stack : List Frame}

/-- The first item of an array is read inside it. -/
theorem foldlM_item (v : Json) (others : List Json) :
    (itemTokens (v :: others)).foldlM (Reading.step limit) ⟨stack, .item⟩ =
      (itemTokens (v :: others)).foldlM (Reading.step limit) ⟨.array [] :: stack, .value⟩ := by
  -- No value starts with the token that closes an array.
  cases others <;> cases v <;> rfl

theorem foldlM_member (m : String × Json) (others : Row) :
    (memberTokens (m :: others)).foldlM (Reading.step limit) ⟨stack, .member⟩ =
      (memberTokens (m :: others)).foldlM (Reading.step limit) ⟨stack, .name []⟩ := by
  cases others <;> rfl

/-- Items are read one by one onto those that are done, which are kept reversed. -/
theorem foldlM_itemTokens {v : Json} {others : List Json}
    (h : ∀ w ∈ v :: others, ∀ done, w.tokens.foldlM (Reading.step limit)
      ⟨.array done :: stack, .value⟩ = some ⟨.array done :: stack, .rest w⟩) (done : List Json) :
    (itemTokens (v :: others)).foldlM (Reading.step limit) ⟨.array done :: stack, .value⟩ =
      some ⟨stack, .rest (.arr (done.reverse ++ v :: others))⟩ := by
  induction others generalizing v done with
  | nil =>
      have hv := h v (List.mem_singleton_self v) done
      have hclose : Reading.step limit ⟨.array done :: stack, .rest v⟩ .closeArray =
          some ⟨stack, .rest (.arr (v :: done).reverse)⟩ := rfl
      simp only [itemTokens, List.foldlM_append, List.foldlM_cons, List.foldlM_nil, hv, hclose,
        Option.bind_eq_bind, Option.bind_some, Option.pure_def, List.reverse_cons]
  | cons w others ih =>
      obtain ⟨hv, hothers⟩ := List.forall_mem_cons.mp h
      have hcomma : Reading.step limit ⟨.array done :: stack, .rest v⟩ .comma =
          some ⟨.array (v :: done) :: stack, .value⟩ := rfl
      simp only [itemTokens, List.foldlM_append, List.foldlM_cons, hv done, hcomma,
        Option.bind_eq_bind, Option.bind_some, ih hothers (v :: done), List.reverse_cons,
        List.append_assoc, List.singleton_append]

/-- A name and its value are read in front of whatever ends the member. -/
theorem foldlM_named {name : String} {v : Json} {done : Row}
    (hv : v.tokens.foldlM (Reading.step limit) ⟨.object done name :: stack, .value⟩ =
      some ⟨.object done name :: stack, .rest v⟩) (rest : List Token) :
    (.text name :: .colon :: v.tokens ++ rest).foldlM (Reading.step limit) ⟨stack, .name done⟩ =
      rest.foldlM (Reading.step limit) ⟨.object done name :: stack, .rest v⟩ := by
  have hname : Reading.step limit ⟨stack, .name done⟩ (.text name) =
      some ⟨stack, .colon done name⟩ := rfl
  have hcolon : Reading.step limit ⟨stack, .colon done name⟩ .colon =
      some ⟨.object done name :: stack, .value⟩ := rfl
  simp only [List.cons_append, List.foldlM_cons, List.foldlM_append, hname, hcolon, hv,
    Option.bind_eq_bind, Option.bind_some]

theorem foldlM_memberTokens {m : String × Json} {others : Row}
    (h : ∀ n ∈ m :: others, ∀ name done, n.2.tokens.foldlM (Reading.step limit)
      ⟨.object done name :: stack, .value⟩ = some ⟨.object done name :: stack, .rest n.2⟩)
    (done : Row) :
    (memberTokens (m :: others)).foldlM (Reading.step limit) ⟨stack, .name done⟩ =
      some ⟨stack, .rest (.obj (Row.ofList (done.reverse ++ m :: others)))⟩ := by
  induction others generalizing m done with
  | nil =>
      obtain ⟨name, v⟩ := m
      have hv := h (name, v) (List.mem_singleton_self _) name done
      have hclose : Reading.step limit ⟨.object done name :: stack, .rest v⟩ .closeObject =
          some ⟨stack, .rest (.obj (Row.ofList ((name, v) :: done).reverse))⟩ := rfl
      rw [memberTokens, foldlM_named hv, List.foldlM_cons, hclose, List.reverse_cons]
      rfl
  | cons n others ih =>
      obtain ⟨name, v⟩ := m
      obtain ⟨hfirst, hothers⟩ := List.forall_mem_cons.mp h
      have hcomma : Reading.step limit ⟨.object done name :: stack, .rest v⟩ .comma =
          some ⟨stack, .name ((name, v) :: done)⟩ := rfl
      rw [memberTokens, foldlM_named (hfirst name done), List.foldlM_cons, hcomma]
      · simp only [Option.bind_eq_bind, Option.bind_some, ih hothers ((name, v) :: done),
          List.reverse_cons, List.append_assoc, List.cons_append, List.nil_append]
      · exact List.cons_ne_nil n others

/-- The machine comes from the tokens of a value to the value, below the limit. -/
theorem foldlM_tokens {v : Json} (hwf : v.WellFormed) {n : Nat} (hn : v.NestedWithin n)
    (hstack : stack.length + n ≤ limit) :
    v.tokens.foldlM (Reading.step limit) ⟨stack, .value⟩ = some ⟨stack, .rest v⟩ := by
  induction v using Json.induction generalizing n stack with
  | null | bool _ | num _ | str _ => rfl
  | arr items ih =>
      cases hwf with
      | arr hwf =>
          cases hn with
          | @arr n _ hn =>
              have hroom : stack.length < limit := by omega
              have hopen : Reading.step limit ⟨stack, .value⟩ .openArray = some ⟨stack, .item⟩ :=
                if_pos hroom
              simp only [tokens, List.foldlM_cons, hopen, Option.bind_eq_bind, Option.bind_some]
              -- The stack grows by one for the items, as the nesting they may have shrinks.
              cases items with
              | nil => rfl
              | cons w others =>
                  rw [foldlM_item]
                  refine foldlM_itemTokens (fun w hw done => ?_) []
                  exact ih w hw (hwf w hw) (hn w hw) (by simp only [List.length_cons]; omega)
  | obj members ih =>
      cases hwf with
      | obj hnames hwf =>
          cases hn with
          | @obj n _ hn =>
              have hroom : stack.length < limit := by omega
              have hopen : Reading.step limit ⟨stack, .value⟩ .openObject = some ⟨stack, .member⟩ :=
                if_pos hroom
              simp only [tokens, List.foldlM_cons, hopen, Option.bind_eq_bind, Option.bind_some]
              cases members with
              | nil => rfl
              | cons m others =>
                  rw [foldlM_member, foldlM_memberTokens (fun m hm name done => ?_) [],
                    List.reverse_nil, List.nil_append, Row.ofList_of_nodup hnames]
                  exact ih m hm (hwf m hm) (hn m hm) (by simp only [List.length_cons]; omega)

end

/-- Compact text is read as the value that it was written for. -/
theorem read?_compact {v : Json} (hwf : v.WellFormed) (hfree : v.FloatFree)
    (hnested : v.NestedWithin nestingLimit) : read? v.compact = some v := by
  have htokens : tokens? v.compact = some v.tokens := by
    have hscan := scan_compact hwf hfree .nil
    rw [List.append_nil] at hscan
    rw [tokens?, hscan]
    simp [scan]
  have hmachine : v.tokens.foldlM (Reading.step nestingLimit) Reading.start = some ⟨[], .rest v⟩ :=
    foldlM_tokens hwf hnested (by simp)
  simp only [read?, readWithin?, htokens, Option.bind_eq_bind, Option.bind_some, hmachine,
    Reading.result?]

end RowShape.Json
