import RowShape.Proofs.Digits
import RowShape.Proofs.JsonText
import RowShape.Toml.Reader

/-!
Texts in TOML. A basic text with its quotes, backslashes and control characters escaped reads
back, and so does a document that holds one text to a line, each under a bare key of its own.
-/

namespace RowShape.Toml

/-- A character in a basic text: as it stands where it may, else behind a backslash or by its
code in two digits. -/
def escaped (c : Char) : List Char :=
  if c = '"' ∨ c = '\\' then ['\\', c]
  else if isAllowed c then [c]
  else ['\\', 'x', Json.hexDigit (c.toNat / 16), Json.hexDigit (c.toNat % 16)]

def quoted (s : List Char) : List Char := '"' :: (s.flatMap escaped ++ ['"'])

theorem lt_of_not_isAllowed {c : Char} (h : isAllowed c = false) : c.toNat < 0x80 := by
  simp only [isAllowed, Bool.or_eq_false_iff, Bool.and_eq_false_iff, decide_eq_false_iff_not,
    bne_eq_false_iff_eq] at h
  omega

theorem escape?_code {c : Char} (hc : c.toNat < 0x80) (rest : List Char) :
    escape? ('x' :: Json.hexDigit (c.toNat / 16) :: Json.hexDigit (c.toNat % 16) :: rest) =
      some (c, 3) := by
  have hhigh := Json.hexValue?_hexDigit (c.toNat / 16) (by omega)
  have hlow := Json.hexValue?_hexDigit (c.toNat % 16) (by omega)
  have hcode : 16 * (c.toNat / 16) + c.toNat % 16 = c.toNat := Nat.div_add_mod _ _
  have hscalar : c.toNat < 0xD800 := by omega
  simp [escape?, escapeDigits?, charOfHex?, hhigh, hlow, hcode, hscalar]

theorem basic_escaped (c : Char) (rest : List Char) :
    basic 0 (escaped c ++ rest) = (basic 0 rest).map fun (s, r) => (c :: s, r) := by
  rw [escaped]
  split
  case isTrue h =>
    cases h with
    | inl h => subst h; rfl
    | inr h => subst h; rfl
  case isFalse h =>
    obtain ⟨hquote, hslash⟩ := not_or.mp h
    split
    case isTrue hallowed =>
      rw [List.singleton_append, basic.eq_def]
      simp [hallowed]
    case isFalse hnot =>
      have hcode := escape?_code (lt_of_not_isAllowed (Bool.eq_false_iff.mpr hnot)) rest
      simp [basic, hcode]

theorem basic_flatMap_escaped (s rest : List Char) :
    basic 0 (s.flatMap escaped ++ '"' :: rest) = some (s, rest) := by
  induction s with
  | nil => rfl
  | cons c cs ih => rw [List.flatMap_cons, List.append_assoc, basic_escaped, ih]; rfl

/-- No quote stands in a text without a backslash in front of it. -/
theorem exists_escaped (c : Char) : ∃ d ds, escaped c = d :: ds ∧ d ≠ '"' := by
  rw [escaped]
  split
  case isTrue => exact ⟨'\\', [c], rfl, by decide⟩
  case isFalse h =>
    split
    case isTrue => exact ⟨c, [], rfl, fun hquote => h (.inl hquote)⟩
    case isFalse => exact ⟨'\\', _, rfl, by decide⟩

theorem quoted?_quoted (s : List Char) {rest : List Char} (hrest : rest.head? ≠ some '"') :
    quoted? (quoted s ++ rest) = some (s, rest) := by
  have hread := basic_flatMap_escaped s rest
  rw [quoted, List.cons_append, List.append_assoc, List.singleton_append]
  cases s with
  | nil =>
      -- The closing quote must not be taken for the second of three.
      cases rest with
      | nil => rfl
      | cons c cs =>
          have hc : c ≠ '"' := fun h => hrest (congrArg some h)
          simp [quoted?, hc, basic]
  | cons c cs =>
      obtain ⟨d, ds, hd, hne⟩ := exists_escaped c
      rw [List.flatMap_cons, hd] at hread ⊢
      simpa [quoted?, hne] using hread

/-- A key that needs no quotes. -/
def IsBareKey (key : String) : Prop := key.toList ≠ [] ∧ ∀ c ∈ key.toList, isKeyChar c = true

instance (key : String) : Decidable (IsBareKey key) :=
  haveI := List.decidableBAll (fun c => isKeyChar c = true) key.toList
  inferInstanceAs (Decidable (_ ∧ _))

theorem ne_of_isKeyChar {c d : Char} (hc : isKeyChar c = true) (hd : isKeyChar d = false) :
    c ≠ d := by
  rintro rfl
  exact Bool.false_ne_true (hd.symm.trans hc)

theorem isBlank_of_isKeyChar {c : Char} (hc : isKeyChar c = true) : isBlank c = false := by
  have hspace := ne_of_isKeyChar hc (d := ' ') (by decide)
  have htab := ne_of_isKeyChar hc (d := '\t') (by decide)
  simp [isBlank, hspace, htab]

theorem skipBlanks_key {c : Char} (hc : isKeyChar c = true) (rest : List Char) :
    skipBlanks (c :: rest) = c :: rest := by
  rw [skipBlanks, List.dropWhile_cons_of_neg (by simp [isBlank_of_isKeyChar hc])]

theorem skipSpace_key {c : Char} (hc : isKeyChar c = true) (rest : List Char) :
    skipSpace (c :: rest) = c :: rest := by
  have hcomment := ne_of_isKeyChar hc (d := '#') (by decide)
  have hfeed := ne_of_isKeyChar hc (d := '\n') (by decide)
  have hreturn := ne_of_isKeyChar hc (d := '\r') (by decide)
  have hend : lineEnd? (c :: rest) = none := by
    simp [lineEnd?, skipBlanks_key hc, hcomment, hfeed, hreturn]
  rw [skipSpace, List.length_cons, skipLines, skipBlanks_key hc, hend]

theorem keyPart?_bare {key : String} (hkey : IsBareKey key) {rest : List Char}
    (hrest : ∀ c, rest.head? = some c → isKeyChar c = false) :
    keyPart? (key.toList ++ rest) = some (key, rest) := by
  obtain ⟨hne, hall⟩ := hkey
  have htake := takeWhile_run hall hrest
  have hdrop := dropWhile_run hall hrest
  obtain ⟨c, cs, hcs⟩ := List.exists_cons_of_ne_nil hne
  have hc : isKeyChar c = true := hall c (by simp [hcs])
  have hquote := ne_of_isKeyChar hc (d := '"') (by decide)
  have hsingle := ne_of_isKeyChar hc (d := '\'') (by decide)
  rw [keyPart?, htake, hdrop]
  · have hname : String.ofList (c :: cs) = key := by rw [← hcs, String.ofList_toList]
    simp only [hcs, hname]
  all_goals
    intro more hmore
    rw [hcs, List.cons_append, List.cons.injEq] at hmore
  · exact hquote hmore.1
  · exact hsingle hmore.1

theorem key?_bare {key : String} (hkey : IsBareKey key) (rest : List Char) :
    key? (key.toList ++ ' ' :: '=' :: rest) = some ([key], '=' :: rest) := by
  have hpart : keyPart? (key.toList ++ ' ' :: '=' :: rest) = some (key, ' ' :: '=' :: rest) := by
    refine keyPart?_bare hkey fun c hc => ?_
    rw [← Option.some.inj hc]
    decide
  have hblank : skipBlanks (' ' :: '=' :: rest) = '=' :: rest := rfl
  have hstart : skipBlanks (key.toList ++ ' ' :: '=' :: rest) =
      key.toList ++ ' ' :: '=' :: rest := by
    obtain ⟨c, cs, hcs⟩ := List.exists_cons_of_ne_nil hkey.1
    rw [hcs]
    exact skipBlanks_key (hkey.2 c (by simp [hcs])) _
  have hwithin (room : Nat) :
      keyWithin? (room + 1) (key.toList ++ ' ' :: '=' :: rest) = some ([key], '=' :: rest) := by
    rw [keyWithin?, hstart, hpart]
    rfl
  exact hwithin 79

/-- One entry: its key, and the text under it. -/
def textLine (key s : String) : List Char :=
  key.toList ++ ' ' :: '=' :: ' ' :: (quoted s.toList ++ ['\n'])

def textLines (entries : List (String × String)) : List Char :=
  entries.flatMap fun e => textLine e.1 e.2

theorem textLine_append (key s : String) (rest : List Char) :
    textLine key s ++ rest =
      key.toList ++ ' ' :: '=' :: ' ' :: (quoted s.toList ++ '\n' :: rest) := by
  simp only [textLine, List.append_assoc, List.cons_append, List.nil_append]

theorem IsBareKey.exists_textLine {key : String} (hkey : IsBareKey key) (s : String)
    (rest : List Char) :
    ∃ c cs, isKeyChar c = true ∧ textLine key s ++ rest = c :: cs := by
  obtain ⟨c, cs, hcs⟩ := List.exists_cons_of_ne_nil hkey.1
  have hc : isKeyChar c = true := hkey.2 c (by simp [hcs])
  exact ⟨c, cs ++ _, hc, by rw [textLine_append, hcs, List.cons_append]⟩

theorem value?_quoted (fuel room : Nat) (s : List Char) {rest : List Char}
    (hrest : rest.head? ≠ some '"') :
    value? (fuel + 1) room (quoted s ++ rest) = some (.text (String.ofList s), rest) := by
  have hread := quoted?_quoted s hrest
  rw [quoted, List.cons_append] at hread ⊢
  rw [value?, hread]
  rfl

theorem entry?_textLine {key : String} (hkey : IsBareKey key) {table : Table}
    (hnew : table.lookup key = none) (s : String) (rest : List Char) :
    entry? ⟨table, []⟩ (textLine key s ++ rest) =
      some (⟨table ++ [(key, .text s)], []⟩, '\n' :: rest) := by
  have hblank : skipBlanks (' ' :: (quoted s.toList ++ '\n' :: rest)) =
      quoted s.toList ++ '\n' :: rest := rfl
  have hfeed : ('\n' :: rest).head? ≠ some '"' := by simp
  have hvalue := value?_quoted (quoted s.toList ++ '\n' :: rest).length depthLimit s.toList hfeed
  rw [textLine_append, entry?, key?_bare hkey]
  simp only [Option.bind_eq_bind, Option.bind_some, List.length_cons, hblank, hvalue]
  simp [Table.update, Table.addAt, Table.add, hnew]

theorem lines?_textLine {key : String} (hkey : IsBareKey key) {table : Table}
    (hnew : table.lookup key = none) (s : String) (fuel : Nat) (rest : List Char) :
    lines? (fuel + 1) ⟨table, []⟩ (textLine key s ++ rest) =
      lines? fuel ⟨table ++ [(key, .text s)], []⟩ rest := by
  have hentry := entry?_textLine hkey hnew s rest
  have hend : lineEnd? ('\n' :: rest) = some rest := rfl
  obtain ⟨c, cs, hc, hcs⟩ := hkey.exists_textLine s rest
  have hbracket := ne_of_isKeyChar hc (d := '[') (by decide)
  rw [hcs] at hentry ⊢
  simp [lines?, skipSpace_key hc, hbracket, hentry, hend]

theorem lookup_of_nodup {table : Table} {key : String} {keys : List String}
    (h : (table.map (·.1) ++ key :: keys).Nodup) : table.lookup key = none := by
  rw [List.lookup_eq_none_iff]
  intro e he
  have hne : e.1 ≠ key := (List.nodup_append.mp h).2.2 e.1 (List.mem_map_of_mem he) key
    List.mem_cons_self
  exact bne_iff_ne.mpr hne.symm

/-- Every round adds the entry of one line, and no key occurs twice in the table and the lines
that are left. -/
theorem lines?_textLines {entries : List (String × String)} {table : Table} {fuel : Nat}
    (hkeys : ∀ e ∈ entries, IsBareKey e.1)
    (hnodup : (table.map (·.1) ++ entries.map (·.1)).Nodup)
    (hfuel : (textLines entries).length ≤ fuel) :
    lines? fuel ⟨table, []⟩ (textLines entries) =
      some (table ++ entries.map fun e => (e.1, .text e.2)) := by
  induction entries generalizing table fuel with
  | nil =>
      rw [List.map_nil, List.append_nil]
      cases fuel <;> rfl
  | cons e rest ih =>
      obtain ⟨key, s⟩ := e
      obtain ⟨hkey, hkeys⟩ := List.forall_mem_cons.mp hkeys
      have hline : textLines ((key, s) :: rest) = textLine key s ++ textLines rest := rfl
      rw [hline] at hfuel ⊢
      cases fuel with
      | zero =>
          obtain ⟨c, cs, _, hcs⟩ := hkey.exists_textLine s (textLines rest)
          simp [hcs] at hfuel
      | succ fuel =>
          rw [lines?_textLine hkey (lookup_of_nodup hnodup), ih hkeys, List.append_assoc]
          · rfl
          · simpa using hnodup
          · simp [textLine] at hfuel
            omega

/-- Texts under bare keys that differ, one entry a line, read back in their order. -/
theorem read?_textLines {entries : List (String × String)}
    (hkeys : ∀ e ∈ entries, IsBareKey e.1) (hnodup : (entries.map (·.1)).Nodup) :
    read? (textLines entries) = some (entries.map fun e => (e.1, .text e.2)) := by
  have hmark : dropByteOrderMark (textLines entries) = textLines entries := by
    cases entries with
    | nil => rfl
    | cons e rest =>
        obtain ⟨c, cs, hc, hcs⟩ :=
          (hkeys e List.mem_cons_self).exists_textLine e.2 (textLines rest)
        have hne := ne_of_isKeyChar hc (d := '\uFEFF') (by decide)
        have hline : textLines (e :: rest) = c :: cs := hcs
        simp [hline, dropByteOrderMark, hne]
  have hstart : (([] : Table).map (·.1) ++ entries.map (·.1)).Nodup := hnodup
  rw [read?, hmark, lines?_textLines hkeys hstart (Nat.le_refl _), List.nil_append]

theorem read?_textLine {key : String} (hkey : IsBareKey key) (s : String) :
    read? (textLine key s) = some [(key, .text s)] := by
  have hline : textLines [(key, s)] = textLine key s := List.append_nil _
  rw [← hline, read?_textLines]
  · rfl
  · intro e he
    rwa [List.eq_of_mem_singleton he]
  · exact List.nodup_singleton key

end RowShape.Toml
