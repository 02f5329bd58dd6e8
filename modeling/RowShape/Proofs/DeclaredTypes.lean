import RowShape.Proofs.Blanks
import RowShape.Proofs.LetterCase
import RowShape.Sql.DeclaredType

/-!
The class of a declared type by its base name: a name with a class of its own, in any spelling,
and otherwise the column affinity that SQLite gives it.
-/

namespace RowShape

theorem foldCase_trim (s : List Char) : foldCase (trim s) = trim (foldCase s) := by
  have hblank := comp_toLower fun _ => isBlank_of_isAlpha
  simp only [trim, trimEnd, dropEndWhile, trimStart, foldCase, List.dropWhile_map,
    ← List.map_reverse, hblank]

theorem occursIn_iff (part s : List Char) : occursIn part s = true ↔ part <:+: s := by
  induction s with
  | nil => rw [occursIn, List.isEmpty_iff, List.infix_nil]
  | cons c cs ih =>
      rw [occursIn, Bool.or_eq_true, List.isPrefixOf_iff_prefix, ih, List.infix_cons_iff]

namespace DeclaredType

theorem foldCase_baseName (s : List Char) : foldCase (baseName s) = baseName (foldCase s) := by
  have hparen : (· != '(') ∘ Char.toLower = (· != '(') := by
    apply comp_toLower (b := true)
    rintro c hc
    rw [bne_iff_ne]
    rintro rfl
    cases hc
  have htake (t : List Char) :
      foldCase (t.takeWhile (· != '(')) = (foldCase t).takeWhile (· != '(') := by
    rw [foldCase, foldCase, List.takeWhile_map, hparen]
  rw [baseName, baseName, foldCase_trim, htake, foldCase_trim]

/-- Trimming first makes no difference to what stands in front of the parenthesis. -/
theorem baseName_eq (s : List Char) : baseName s = trim (s.takeWhile (· != '(')) := by
  obtain ⟨before, after, hs, hbefore, hafter⟩ := exists_trimmed s
  have hparen {run : List Char} (hrun : ∀ c ∈ run, isBlank c = true) :
      ∀ c ∈ run, (c != '(') = true := by
    intro c hc
    rw [bne_iff_ne]
    rintro rfl
    exact absurd (hrun _ hc) (by decide)
  have htail : ∃ run, (trim s ++ after).takeWhile (· != '(') =
      (trim s).takeWhile (· != '(') ++ run ∧ ∀ c ∈ run, isBlank c = true := by
    rw [List.takeWhile_append]
    split
    case isTrue hall =>
      have hwhole := (List.takeWhile_prefix _).eq_of_length hall
      have hrun := List.takeWhile_eq_self_iff.mpr (hparen hafter)
      exact ⟨after, by rw [hwhole, hrun], hafter⟩
    case isFalse => exact ⟨[], (List.append_nil _).symm, List.forall_mem_nil _⟩
  obtain ⟨run, htake, hrun⟩ := htail
  calc baseName s
      = trim ((trim s).takeWhile (· != '(')) := rfl
    _ = trim (before ++ (trim s).takeWhile (· != '(') ++ run) :=
        (trim_append_blanks hbefore hrun _).symm
    _ = trim ((before ++ trim s ++ after).takeWhile (· != '(')) := by
        rw [List.append_assoc before (trim s), List.takeWhile_append_of_pos (hparen hbefore),
          htake, List.append_assoc]
    _ = trim (s.takeWhile (· != '(')) := by rw [← hs]

/-- The class of a base name in lower case. -/
def ofBase (base : List Char) : DeclaredType :=
  ((namedTypes.find? fun entry => entry.2.any (·.toList == base)).map (·.1)).getD (affinity base)

theorem ofDeclaration_eq (declaration : String) :
    ofDeclaration declaration = ofBase (foldCase (baseName declaration.toList)) := by
  rw [ofDeclaration, ofBase]
  generalize foldCase (baseName declaration.toList) = base
  generalize (namedTypes.find? fun entry => entry.2.any (·.toList == base)) = found
  cases found with
  | none => rfl
  | some entry => rfl

/-- A base name that stands in the list of a class. -/
def Named (base : List Char) (t : DeclaredType) : Prop :=
  ∃ names, (t, names) ∈ namedTypes ∧ ∃ name ∈ names, SameLetters name.toList base

/-- One of some words occurs in a base name. -/
def Mentions (base : List Char) (words : List String) : Prop :=
  ∃ word ∈ words, ∃ part, part <:+: base ∧ SameLetters word.toList part

/-- The column affinity of SQLite. A rule applies where none of those before it does. -/
inductive HasAffinity (base : List Char) : DeclaredType → Prop where
  | integer (h : Mentions base ["INT"]) : HasAffinity base integer
  | text (hinteger : ¬ Mentions base ["INT"]) (h : Mentions base ["CHAR", "CLOB", "TEXT"]) :
      HasAffinity base text
  | blob (hinteger : ¬ Mentions base ["INT"]) (htext : ¬ Mentions base ["CHAR", "CLOB", "TEXT"])
      (h : base = [] ∨ Mentions base ["BLOB"]) : HasAffinity base blob
  | real (hinteger : ¬ Mentions base ["INT"]) (htext : ¬ Mentions base ["CHAR", "CLOB", "TEXT"])
      (hblob : ¬ (base = [] ∨ Mentions base ["BLOB"]))
      (h : Mentions base ["REAL", "FLOA", "DOUB"]) : HasAffinity base real
  | numeric (hinteger : ¬ Mentions base ["INT"])
      (htext : ¬ Mentions base ["CHAR", "CLOB", "TEXT"])
      (hblob : ¬ (base = [] ∨ Mentions base ["BLOB"]))
      (hreal : ¬ Mentions base ["REAL", "FLOA", "DOUB"]) : HasAffinity base numeric

theorem mentions_iff (base : List Char) (words : List String) :
    Mentions base words ↔
      (words.any fun word => occursIn (foldCase word.toList) (foldCase base)) = true := by
  rw [List.any_eq_true]
  refine exists_congr fun word => and_congr_right fun _ => ?_
  rw [occursIn_iff, foldCase, foldCase, List.infix_map_iff]
  exact exists_congr fun part => and_congr_right fun _ => sameLetters_iff

theorem mentions_word (base : List Char) (word : String) :
    Mentions base [word] ↔ occursIn (foldCase word.toList) (foldCase base) = true := by
  rw [mentions_iff, List.any_cons, List.any_nil, Bool.or_false]

theorem mentions_words (base : List Char) (first second third : String) :
    Mentions base [first, second, third] ↔
      (occursIn (foldCase first.toList) (foldCase base) ||
        occursIn (foldCase second.toList) (foldCase base) ||
        occursIn (foldCase third.toList) (foldCase base)) = true := by
  rw [mentions_iff, Bool.or_assoc]
  simp only [List.any_cons, List.any_nil, Bool.or_false]

theorem hasAffinity_affinity (base : List Char) :
    HasAffinity base (affinity (foldCase base)) := by
  have hinteger := mentions_word base "INT"
  have htext := mentions_words base "CHAR" "CLOB" "TEXT"
  have hblob : base = [] ∨ Mentions base ["BLOB"] ↔
      ((foldCase base).isEmpty || occursIn "blob".toList (foldCase base)) = true := by
    have hempty : foldCase base = [] ↔ base = [] := List.map_eq_nil_iff
    rw [mentions_word, Bool.or_eq_true, List.isEmpty_iff, hempty]
    rfl
  have hreal := mentions_words base "REAL" "FLOA" "DOUB"
  rw [affinity]
  split
  case isTrue h => exact .integer (hinteger.mpr h)
  case isFalse h =>
  have hnoInteger := mt hinteger.mp h
  split
  case isTrue h => exact .text hnoInteger (htext.mpr h)
  case isFalse h =>
  have hnoText := mt htext.mp h
  split
  case isTrue h => exact .blob hnoInteger hnoText (hblob.mpr h)
  case isFalse h =>
  have hnoBlob := mt hblob.mp h
  split
  case isTrue h => exact .real hnoInteger hnoText hnoBlob (hreal.mpr h)
  case isFalse h => exact .numeric hnoInteger hnoText hnoBlob (mt hreal.mp h)

theorem HasAffinity.unique {base : List Char} {t u : DeclaredType} (ht : HasAffinity base t)
    (hu : HasAffinity base u) : t = u := by
  cases ht <;> cases hu <;> first | rfl | contradiction

/-- Every listed name has the class of its list, so that no name is in two of them. -/
theorem ofBase_of_mem :
    ∀ entry ∈ namedTypes, ∀ name ∈ entry.2, ofBase name.toList = entry.1 := by decide

theorem foldCase_of_mem :
    ∀ entry ∈ namedTypes, ∀ name ∈ entry.2, foldCase name.toList = name.toList := by decide

theorem Named.ofBase_eq {base : List Char} {t : DeclaredType} (h : Named base t) :
    ofBase (foldCase base) = t := by
  obtain ⟨names, hmem, name, hname, hsame⟩ := h
  rw [← sameLetters_iff.mp hsame, foldCase_of_mem _ hmem name hname]
  exact ofBase_of_mem _ hmem name hname

theorem ofBase_of_unnamed {base : List Char} (h : ∀ t, ¬ Named base t) :
    ofBase (foldCase base) = affinity (foldCase base) := by
  have hnone : (namedTypes.find? fun entry => entry.2.any (·.toList == foldCase base)) = none := by
    rw [List.find?_eq_none]
    intro entry hmem hany
    obtain ⟨name, hname, heq⟩ := List.any_eq_true.mp hany
    refine h entry.1 ⟨entry.2, hmem, name, hname, sameLetters_iff.mpr ?_⟩
    rw [foldCase_of_mem entry hmem name hname, beq_iff_eq.mp heq]
  rw [ofBase, hnone, Option.map_none, Option.getD_none]

theorem ofBase_iff {base : List Char} {t : DeclaredType} :
    ofBase (foldCase base) = t ↔ Named base t ∨ (∀ u, ¬ Named base u) ∧ HasAffinity base t := by
  constructor
  · rintro rfl
    by_cases hnamed : ∃ u, Named base u
    · obtain ⟨u, hu⟩ := hnamed
      exact .inl (hu.ofBase_eq ▸ hu)
    · have hunnamed := not_exists.mp hnamed
      rw [ofBase_of_unnamed hunnamed]
      exact .inr ⟨hunnamed, hasAffinity_affinity base⟩
  · rintro (hnamed | ⟨hunnamed, haffinity⟩)
    · exact hnamed.ofBase_eq
    · rw [ofBase_of_unnamed hunnamed]
      exact (hasAffinity_affinity base).unique haffinity

/-- The class of a declaration depends on its base name, up to the case of letters: a listed
name has the class of its list, and any other name its affinity. -/
theorem ofDeclaration_classes (declaration : String) :
    (∀ other : String, SameLetters declaration.toList other.toList →
        ofDeclaration other = ofDeclaration declaration) ∧
      (∀ before after : String, (∀ c ∈ before.toList, isBlank c = true) →
        (∀ c ∈ after.toList, isBlank c = true) →
        ofDeclaration (before ++ declaration ++ after) = ofDeclaration declaration) ∧
      (∀ arguments : String,
        ofDeclaration (declaration ++ "(" ++ arguments) = ofDeclaration declaration) ∧
      ∀ t, ofDeclaration declaration = t ↔
        Named (trim (declaration.toList.takeWhile (· != '('))) t ∨
          (∀ u, ¬ Named (trim (declaration.toList.takeWhile (· != '('))) u) ∧
            HasAffinity (trim (declaration.toList.takeWhile (· != '('))) t := by
  refine ⟨?_, ?_, ?_, ?_⟩
  · intro other h
    rw [ofDeclaration_eq, ofDeclaration_eq, foldCase_baseName, foldCase_baseName,
      sameLetters_iff.mp h]
  · intro before after hbefore hafter
    rw [ofDeclaration_eq, ofDeclaration_eq, String.toList_append, String.toList_append, baseName,
      trim_append_blanks hbefore hafter, baseName]
  · intro arguments
    have hcut : (declaration ++ "(" ++ arguments).toList.takeWhile (· != '(') =
        declaration.toList.takeWhile (· != '(') := by
      rw [String.toList_append, String.toList_append, List.append_assoc, List.takeWhile_append]
      have hstop : ("(".toList ++ arguments.toList).takeWhile (· != '(') = [] := rfl
      split
      case isTrue h =>
        rw [hstop, List.append_nil]
        exact ((List.takeWhile_prefix _).eq_of_length h).symm
      case isFalse => rfl
    rw [ofDeclaration_eq, ofDeclaration_eq, baseName_eq, hcut, baseName_eq]
  · intro t
    rw [ofDeclaration_eq, baseName_eq]
    exact ofBase_iff

/-- A listed name of several words, spelled in other cases, between blanks, and with the name
of another class behind a parenthesis. -/
theorem ofDeclaration_classes_withTimeZone :
    ofDeclaration "TimeStamp WITH Time Zone" = .datetime ∧
      ofDeclaration ("\u2003" ++ "timestamp with time zone" ++ "\n") = .datetime ∧
      ofDeclaration ("timestamp with time zone" ++ "(" ++ "INT)") = .datetime := by
  obtain ⟨hcase, hblanks, hsuffix, hclass⟩ := ofDeclaration_classes "timestamp with time zone"
  have hnamed : ofDeclaration "timestamp with time zone" = .datetime := by
    refine (hclass .datetime).mpr (.inl ⟨_, List.mem_cons_of_mem _ List.mem_cons_self,
      "timestamp with time zone", by decide, ?_⟩)
    exact sameLetters_iff.mpr (by decide +kernel)
  rw [← hnamed]
  refine ⟨hcase _ (sameLetters_iff.mpr (by decide +kernel)), hblanks _ _ ?_ ?_, hsuffix _⟩
  · exact List.all_eq_true.mp (by decide)
  · exact List.all_eq_true.mp (by decide)

end DeclaredType

end RowShape
