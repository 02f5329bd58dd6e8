import RowShape.Catalog
import RowShape.Files.Tree
import RowShape.Proofs.Basic
import RowShape.Proofs.Splitting

/-!
Documents stay in their directory. The path of a document is that of the directory and one name
more, and the names that lead further are refused before any file is read.
-/

namespace RowShape

namespace Path

/-- The names on a path, however many slashes part them. -/
def components (path : String) : List String := (parts path).filter (· ≠ "")

/-- A name that stands for a file of its own wherever it is put. -/
structure IsPlainFile (file : String) : Prop where
  no_slash : '/' ∉ file.toList
  no_backslash : '\\' ∉ file.toList
  ne_here : file ≠ "."
  ne_above : file ≠ ".."
  not_hidden : file.toList.head? ≠ some '.'
  not_absolute : isAbsolute file = false
  ne_empty : file ≠ ""

theorem toList_slash (stem rest : String) :
    (stem ++ "/" ++ rest).toList = stem.toList ++ '/' :: rest.toList := by
  rw [String.toList_append, String.toList_append, List.append_assoc]
  rfl

theorem parts_slash (stem rest : String) :
    parts (stem ++ "/" ++ rest) = parts stem ++ parts rest := by
  rw [parts, toList_slash, splitOn_append, List.map_append, parts, parts]

theorem parts_of_no_slash {file : String} (h : '/' ∉ file.toList) : parts file = [file] := by
  rw [parts, splitOn_of_not_mem h, List.map_singleton, String.ofList_toList]

theorem components_slash (stem rest : String) :
    components (stem ++ "/" ++ rest) = components stem ++ components rest := by
  rw [components, parts_slash, List.filter_append, components, components]

theorem isAbsolute_slash (stem rest : String) :
    isAbsolute (stem ++ "/" ++ rest) = (stem.isEmpty || isAbsolute stem) := by
  rw [isAbsolute, toList_slash, isAbsolute]
  by_cases hempty : stem = ""
  · rw [hempty]
    rfl
  · obtain ⟨c, cs, hstem⟩ := List.exists_cons_of_ne_nil (mt String.toList_eq_nil_iff.mp hempty)
    rw [String.isEmpty_eq_false_iff.mpr hempty, hstem, Bool.false_or]
    rfl

/-- A file is put behind the slash that its directory ends in, or behind one that is added. -/
theorem exists_stem {file : String} (hfile : isAbsolute file = false) (directory : String) :
    directory = "" ∧ join directory file = file ∨
      ∃ stem, (directory = stem ∧ stem ≠ "" ∨ directory = stem ++ "/" ++ "") ∧
        join directory file = stem ++ "/" ++ file := by
  by_cases hempty : directory = ""
  · left
    rw [hempty, join]
    simp
  · right
    have hskip : ¬ (isAbsolute file || directory.isEmpty) = true := by
      simp [hfile, hempty]
    rw [join, if_neg hskip]
    split
    case isTrue hslash =>
      obtain ⟨stem, hstem⟩ := List.getLast?_eq_some_iff.mp (beq_iff_eq.mp hslash)
      have heq : directory = String.ofList stem ++ "/" ++ "" := by
        rw [← String.toList_inj, hstem, toList_slash, String.toList_ofList]
        rfl
      exact ⟨String.ofList stem, .inr heq, by rw [heq, String.append_empty]⟩
    case isFalse => exact ⟨directory, .inl ⟨rfl, hempty⟩, rfl⟩

theorem components_join {file : String} (h : IsPlainFile file) (directory : String) :
    components (join directory file) = components directory ++ [file] := by
  have hfile : components file = [file] := by
    rw [components, parts_of_no_slash h.no_slash]
    simp [h.ne_empty]
  rcases exists_stem h.not_absolute directory with ⟨hempty, hjoin⟩ | ⟨stem, hstem, hjoin⟩
  · rw [hjoin, hempty, hfile]
    rfl
  · rw [hjoin, components_slash, hfile]
    rcases hstem with ⟨rfl, -⟩ | rfl
    · rfl
    · rw [components_slash, show components "" = [] from rfl, List.append_nil]

theorem isAbsolute_join {file : String} (h : IsPlainFile file) (directory : String) :
    isAbsolute (join directory file) = isAbsolute directory := by
  rcases exists_stem h.not_absolute directory with ⟨hempty, hjoin⟩ | ⟨stem, hstem, hjoin⟩
  · rw [hjoin, hempty, h.not_absolute]
    rfl
  · rw [hjoin, isAbsolute_slash]
    rcases hstem with ⟨rfl, hne⟩ | rfl
    · rw [String.isEmpty_eq_false_iff.mpr hne, Bool.false_or]
    · rw [isAbsolute_slash]

end Path

namespace FileTree

variable {t : FileTree}

theorem step_plain {place found : List String} {file : String} (h : Path.IsPlainFile file)
    (hstep : t.step place file = .ok found) :
    t.node? place = some .directory ∧ found = place ++ [file] := by
  unfold step at hstep
  split at hstep
  · cases hstep
  · cases hstep
  case h_3 hdirectory =>
    have hstay : ¬ (file = "" ∨ file = ".") := by
      rintro (hempty | hhere)
      · exact h.ne_empty hempty
      · exact h.ne_here hhere
    rw [if_neg hstay, if_neg h.ne_above] at hstep
    split at hstep
    · cases hstep
    · cases hstep
      exact ⟨hdirectory, rfl⟩

theorem resolve_eq_ok {path : String} {found : List String} :
    t.resolve path = .ok found ↔
      path ≠ "" ∧ '\x00' ∉ path.toList ∧ (Path.parts path).foldlM t.step [] = .ok found := by
  rw [resolve]
  split
  case isTrue hempty => exact iff_of_false nofun fun h => h.1 (String.isEmpty_iff.mp hempty)
  case isFalse hempty =>
  split
  case isTrue hnul => exact iff_of_false nofun fun h => h.2.1 (List.contains_iff_mem.mp hnul)
  case isFalse hnul =>
    exact ⟨fun h => ⟨mt String.isEmpty_iff.mpr hempty, mt List.contains_iff_mem.mpr hnul, h⟩,
      fun h => h.2.2⟩

/-- The empty name behind the last slash of a directory stays in the directory. -/
theorem step_empty {place : List String} (h : t.node? place = some .directory) :
    t.step place "" = .ok place := by
  simp [step, h]

theorem foldlM_parts_slash {stem rest : String} {found : List String} :
    (Path.parts (stem ++ "/" ++ rest)).foldlM t.step [] = .ok found ↔
      ∃ place, (Path.parts stem).foldlM t.step [] = .ok place ∧
        (Path.parts rest).foldlM t.step place = .ok found := by
  rw [Path.parts_slash, List.foldlM_append]
  exact bind_eq_ok

/-- What the path of a file leads to stands in its directory, under the name of the file. -/
theorem resolve_join {file : String} (h : Path.IsPlainFile file) {directory : String}
    {found : List String} (hfound : t.resolve (Path.join directory file) = .ok found) :
    ∃ place, (directory = "" ∧ place = [] ∨ t.resolve directory = .ok place) ∧
      found = place ++ [file] := by
  have hfile {place : List String} (hstep : (Path.parts file).foldlM t.step place = .ok found) :
      t.node? place = some .directory ∧ found = place ++ [file] := by
    rw [Path.parts_of_no_slash h.no_slash, List.foldlM_cons] at hstep
    obtain ⟨next, hnext, hlast⟩ := bind_eq_ok.mp hstep
    cases hlast
    exact step_plain h hnext
  obtain ⟨-, hnul, hwalk⟩ := resolve_eq_ok.mp hfound
  rcases Path.exists_stem h.not_absolute directory with ⟨hempty, hjoin⟩ | ⟨stem, hstem, hjoin⟩
  · rw [hjoin] at hwalk
    exact ⟨[], .inl ⟨hempty, rfl⟩, (hfile hwalk).2⟩
  · rw [hjoin] at hnul hwalk
    obtain ⟨place, hplace, hrest⟩ := foldlM_parts_slash.mp hwalk
    obtain ⟨hdirectory, hplain⟩ := hfile hrest
    refine ⟨place, .inr (resolve_eq_ok.mpr ?_), hplain⟩
    rw [Path.toList_slash, List.mem_append, not_or] at hnul
    rcases hstem with ⟨rfl, hne⟩ | rfl
    · exact ⟨hne, hnul.1, hplace⟩
    · have hstay : (Path.parts "").foldlM t.step place = .ok place := by
        change t.step place "" >>= pure = _
        rw [step_empty hdirectory]
        rfl
      refine ⟨fun hempty => ?_, ?_, foldlM_parts_slash.mpr ⟨place, hplace, hstay⟩⟩
      · have htext := congrArg String.toList hempty
        rw [Path.toList_slash] at htext
        exact absurd htext (List.append_ne_nil_of_right_ne_nil _ (List.cons_ne_nil _ _))
      · rw [Path.toList_slash, List.mem_append, not_or]
        exact ⟨hnul.1, by decide⟩

end FileTree

namespace Catalog

/-- Names of ASCII letters, digits, underscores, hyphens and points that start with no point. -/
structure IsPlainName (name : String) : Prop where
  ne_empty : name ≠ ""
  chars : ∀ c ∈ name.toList, 'a' ≤ c ∧ c ≤ 'z' ∨ 'A' ≤ c ∧ c ≤ 'Z' ∨ '0' ≤ c ∧ c ≤ '9' ∨
    c = '_' ∨ c = '-' ∨ c = '.'
  not_hidden : name.toList.head? ≠ some '.'

theorem isNameChar_iff (c : Char) : isNameChar c = true ↔
    'a' ≤ c ∧ c ≤ 'z' ∨ 'A' ≤ c ∧ c ≤ 'Z' ∨ '0' ≤ c ∧ c ≤ '9' ∨ c = '_' ∨ c = '-' ∨ c = '.' := by
  have hrange {low high : Char} : (decide (low ≤ c) && decide (c ≤ high)) = true ↔
      low ≤ c ∧ c ≤ high := by
    rw [Bool.and_eq_true, decide_eq_true_iff, decide_eq_true_iff]
  have hupper : c.isUpper = true ↔ 'A' ≤ c ∧ c ≤ 'Z' := decide_eq_true_iff
  have hlower : c.isLower = true ↔ 'a' ≤ c ∧ c ≤ 'z' := hrange
  have hdigit : c.isDigit = true ↔ '0' ≤ c ∧ c ≤ '9' := hrange
  change (c.isUpper || c.isLower || c.isDigit || c == '_' || c == '-' || c == '.') = true ↔ _
  simp only [Bool.or_eq_true, hupper, hlower, hdigit, beq_iff_eq, or_assoc]
  exact or_left_comm

theorem isName_iff (name : String) : isName name = true ↔ IsPlainName name := by
  simp only [isName, Bool.and_eq_true, Bool.not_eq_true', String.isEmpty_eq_false_iff,
    List.all_eq_true, isNameChar_iff, bne_iff_ne]
  exact ⟨fun h => ⟨h.1.1, h.1.2, h.2⟩, fun h => ⟨⟨h.ne_empty, h.chars⟩, h.not_hidden⟩⟩

theorem IsPlainName.not_mem {name : String} (h : IsPlainName name) {c : Char}
    (hc : isNameChar c = false) : c ∉ (name ++ ".json").toList := by
  rw [String.toList_append, List.mem_append, not_or]
  constructor
  · intro hmem
    rw [(isNameChar_iff c).mpr (h.chars c hmem)] at hc
    cases hc
  · intro hmem
    have hsuffix : ∀ d ∈ ".json".toList, isNameChar d = true := List.all_eq_true.mp rfl
    rw [hsuffix c hmem] at hc
    cases hc

theorem IsPlainName.isPlainFile {name : String} (h : IsPlainName name) :
    Path.IsPlainFile (name ++ ".json") := by
  obtain ⟨first, rest, hname⟩ :=
    List.exists_cons_of_ne_nil (mt String.toList_eq_nil_iff.mp h.ne_empty)
  have htext : (name ++ ".json").toList = first :: (rest ++ ".json".toList) := by
    rw [String.toList_append, hname, List.cons_append]
  have hfirst : first ≠ '.' := by
    have hhidden := h.not_hidden
    rw [hname] at hhidden
    exact fun hpoint => hhidden (congrArg some hpoint)
  have hslash : '/' ∉ (name ++ ".json").toList := h.not_mem rfl
  -- A file of a name that starts with something else is neither of the two made of points.
  have hpoint : (name ++ ".json").toList.head? ≠ some '.' := by
    rw [htext]
    exact fun heq => hfirst (Option.some.inj heq)
  refine ⟨hslash, h.not_mem rfl, ?_, ?_, hpoint, ?_, ?_⟩
  · exact fun heq => hpoint (by rw [heq]; rfl)
  · exact fun heq => hpoint (by rw [heq]; rfl)
  · rw [Path.isAbsolute, beq_eq_false_iff_ne]
    exact fun heq => hslash (List.mem_of_mem_head? heq)
  · intro hempty
    rw [hempty] at htext
    cases htext

theorem definition_of_not_plain (c : Catalog) {name : String} (h : ¬ IsPlainName name)
    (files : FileSystem) (context : Option Context) :
    c.definition files context name = .error (.invalidName name) := by
  rw [definition, pathOf, if_neg (mt (isName_iff name).mp h)]
  rfl

theorem pathOf_eq_ok {c : Catalog} {name path : String} :
    c.pathOf name = .ok path ↔
      IsPlainName name ∧ Path.join c.directory (name ++ ".json") = path := by
  rw [pathOf, ← isName_iff]
  split
  case isTrue h => exact ⟨fun heq => ⟨h, Except.ok.inj heq⟩, fun heq => congrArg _ heq.2⟩
  case isFalse h => exact iff_of_false nofun fun heq => h heq.1

/-- The definition of a name is made of what one path leads to, and of nothing else. -/
structure ReadsOnly (c : Catalog) (name path : String) : Prop where
  missing : ∀ (files : FileSystem) (context : Option Context),
    files.read path = .error .missing →
      c.definition files context name = .error (.notFound path)
  unreadable : ∀ (files : FileSystem) (context : Option Context),
    files.read path = .error .unreadable →
      c.definition files context name = .error (.unreadable path)
  text : ∀ (files : FileSystem) (context : Option Context) (text : String),
    files.read path = .ok text →
      c.definition files context name =
        (Document.readText c.settings context text).mapError .rendering
  agrees : ∀ (files other : FileSystem) (context : Option Context),
    files.read path = other.read path →
      c.definition files context name = c.definition other context name

theorem readsOnly {c : Catalog} {name path : String} (h : c.pathOf name = .ok path) :
    c.ReadsOnly name path := by
  refine ⟨?_, ?_, ?_, ?_⟩
  · intro files context hread
    simp only [definition, h, bind, Except.bind, hread]
  · intro files context hread
    simp only [definition, h, bind, Except.bind, hread]
  · intro files context text hread
    simp only [definition, h, bind, Except.bind, hread]
  · intro files other context hread
    simp only [definition, h, bind, Except.bind, hread]

/-- The path of a file directly in a directory: one name more, with the same start, and
wherever it leads in a tree of files, that is a place in the directory. -/
structure StandsIn (directory file path : String) : Prop where
  components : Path.components path = Path.components directory ++ [file]
  isAbsolute : Path.isAbsolute path = Path.isAbsolute directory
  resolve : ∀ (t : FileTree) (found : List String), t.resolve path = .ok found →
    ∃ place, (directory = "" ∧ place = [] ∨ t.resolve directory = .ok place) ∧
      found = place ++ [file]

/-- A name is refused before any file is read unless it is plain. The path of a plain name
stands in the directory of the catalog, is the only one that is read, and belongs to no other
name. -/
theorem definition_confined (c : Catalog) :
    (∀ name, (∃ path, c.pathOf name = .ok path) ↔ IsPlainName name) ∧
      (∀ name, ¬ IsPlainName name → ∀ (files : FileSystem) (context : Option Context),
        c.definition files context name = .error (.invalidName name)) ∧
      (∀ name path, c.pathOf name = .ok path → Path.IsPlainFile (name ++ ".json") ∧
        StandsIn c.directory (name ++ ".json") path ∧ c.ReadsOnly name path) ∧
      ∀ name other path, c.pathOf name = .ok path → c.pathOf other = .ok path → name = other := by
  refine ⟨?_, ?_, ?_, ?_⟩
  · intro name
    constructor
    · rintro ⟨path, hpath⟩
      exact (pathOf_eq_ok.mp hpath).1
    · intro h
      exact ⟨_, pathOf_eq_ok.mpr ⟨h, rfl⟩⟩
  · intro name h files context
    exact c.definition_of_not_plain h files context
  · intro name path hpath
    obtain ⟨h, rfl⟩ := pathOf_eq_ok.mp hpath
    have hfile := h.isPlainFile
    refine ⟨hfile, ⟨?_, ?_, ?_⟩, readsOnly hpath⟩
    · exact Path.components_join hfile c.directory
    · exact Path.isAbsolute_join hfile c.directory
    · exact fun t found hfound => FileTree.resolve_join hfile hfound
  · intro name other path hname hother
    obtain ⟨h, rfl⟩ := pathOf_eq_ok.mp hname
    obtain ⟨hplain, heq⟩ := pathOf_eq_ok.mp hother
    have hcomponents := congrArg Path.components heq
    rw [Path.components_join h.isPlainFile, Path.components_join hplain.isPlainFile] at hcomponents
    have hfile := List.singleton_inj.mp (List.append_cancel_left hcomponents)
    exact ((String.append_left_inj ".json").mp hfile).symm

/-- A name that holds two points in a row, and one that starts with them. -/
theorem definition_confined_points :
    Catalog.pathOf ⟨"/srv/shapes/", .sqlite⟩ "news..v2" = .ok "/srv/shapes/news..v2.json" ∧
      StandsIn "/srv/shapes/" "news..v2.json" "/srv/shapes/news..v2.json" ∧
      ReadsOnly ⟨"/srv/shapes/", .sqlite⟩ "news..v2" "/srv/shapes/news..v2.json" ∧
      (∀ other, Catalog.pathOf ⟨"/srv/shapes/", .sqlite⟩ other = .ok "/srv/shapes/news..v2.json" →
        "news..v2" = other) ∧
      ¬ IsPlainName "../news" ∧
      ∀ (files : FileSystem) (context : Option Context),
        definition ⟨"/srv/shapes/", .sqlite⟩ files context "../news" =
          .error (.invalidName "../news") := by
  have hpath : Catalog.pathOf ⟨"/srv/shapes/", .sqlite⟩ "news..v2" =
      .ok "/srv/shapes/news..v2.json" := by decide +kernel
  have hplain : ¬ IsPlainName "../news" := fun h => h.not_hidden rfl
  obtain ⟨-, hrefused, hstands, honly⟩ := definition_confined ⟨"/srv/shapes/", .sqlite⟩
  obtain ⟨-, hdirectory, hreads⟩ := hstands _ _ hpath
  exact ⟨hpath, hdirectory, hreads, fun other => honly _ other _ hpath, hplain, hrefused _ hplain⟩

end Catalog

end RowShape
