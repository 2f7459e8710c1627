import ExtensionPlan.Library
import ExtensionPlan.Proofs.Glob.Concatenation
import ExtensionPlan.Proofs.Glob.Entries
import ExtensionPlan.Proofs.Glob.Validity
import ExtensionPlan.Proofs.Path.Order

/-!
# ExtensionPlan.Proofs.Library.Pattern

**What the name of a library stands for.** Versioned shared objects are searched by a pattern, and
while the directory is escaped in it, the name is not. So the name is read by the rules of patterns
as well, and it may stand for other texts than itself, or for none (`StandsFor`). The entries that
are found are those that are named as a versioned shared object of such a text
(`World.HasMatch`), and the first of them is the answer (`World.findVersioned_eq_some_iff_match`).

A name without characters of meaning stands for itself (`standsFor_iff_eq`).
-/

namespace ExtensionPlan

/-- By the rules of patterns, and behind `lib`, the name stands for the text. -/
def StandsFor (name text : List Char) : Prop :=
  ∃ read, Glob.tokensFrom 0 3 (some 'b') name = .ok read ∧ Glob.covers read text = true

/-- The file is named as a versioned shared object of a text that the name stands for. -/
def MatchesVersion (name file : List Char) : Prop :=
  ∃ text version, file = "lib".toList ++ text ++ ".so.".toList ++ version ∧ StandsFor name text

section Pattern

variable {name : List Char}

/-! ### Reading the pattern -/

/-- What the pattern is read as: the name between what is around it, and a star. -/
def versionedTokens (read : List Glob.Token) : List Glob.Token :=
  "lib".toList.map Glob.escapeToken ++
    (read ++ (".so.".toList.map Glob.escapeToken ++ [.anySequence]))

/-- What is around the name neither adds to it nor takes from it. -/
theorem tokens_versioned (whole : '/' ∉ name) :
    Glob.tokens ("lib".toList ++ name ++ ".so.*".toList) =
      (Glob.tokensFrom 0 3 (some 'b') name).map versionedTokens := by
  have hlib : Glob.escape "lib".toList = "lib".toList := by decide
  have hbehind : ∀ position previous, Glob.tokensFrom 0 position previous ".so.*".toList =
      .ok (".so.".toList.map Glob.escapeToken ++ [.anySequence]) := by
    intro position previous
    have hso : ".so.*".toList = Glob.escape ".so.".toList ++ ['*'] := by decide
    rw [hso, Glob.tokensFrom_escape_append]
    rfl
  have hname : Glob.tokensFrom 0 3 (some 'b') (name ++ ".so.*".toList) = _ :=
    Glob.tokensFrom_append whole (by decide) (by decide) (by decide) (Nat.zero_le _) 3
  have hpattern : Glob.tokens ("lib".toList ++ name ++ ".so.*".toList) =
      (Glob.tokensFrom 0 3 (some 'b') (name ++ ".so.*".toList)).map
        ("lib".toList.map Glob.escapeToken ++ ·) := by
    rw [List.append_assoc, ← hlib, Glob.tokens, Glob.tokensFrom_escape_append, hlib]
    rfl
  rw [hpattern, hname, hbehind]
  cases Glob.tokensFrom 0 3 (some 'b') name <;> rfl

theorem tokens_versioned_of_read (whole : '/' ∉ name) {read : List Glob.Token}
    (hread : Glob.tokensFrom 0 3 (some 'b') name = .ok read) :
    Glob.tokens ("lib".toList ++ name ++ ".so.*".toList) = .ok (versionedTokens read) := by
  rw [tokens_versioned whole, hread]
  rfl

theorem whole_versioned (whole : '/' ∉ name) : '/' ∉ "lib".toList ++ name ++ ".so.*".toList := by
  simp [whole]

theorem covers_versionedTokens {read : List Glob.Token} {file : List Char} :
    Glob.covers (versionedTokens read) file = true ↔
      ∃ text version, file = "lib".toList ++ text ++ ".so.".toList ++ version ∧
        Glob.covers read text = true := by
  have hstar : ∀ rest, Glob.covers [Glob.Token.anySequence] rest = true := fun rest =>
    (Glob.covers_star [] rest).2 List.nil_suffix
  simp only [versionedTokens, Glob.covers_append, Glob.covers_map_escapeToken, hstar, and_true]
  constructor
  · rintro ⟨_, _, rfl, rfl, text, _, rfl, hread, _, version, rfl, rfl⟩
    exact ⟨text, version, by simp only [List.append_assoc], hread⟩
  · rintro ⟨text, version, rfl, hread⟩
    refine ⟨_, text ++ (".so.".toList ++ version), by simp only [List.append_assoc], rfl, text,
      _, rfl, hread, _, version, rfl, rfl⟩

/-- The pattern is one component, which is matched against names. -/
theorem ofTokens_versionedTokens (whole : '/' ∉ name) {read : List Glob.Token}
    (hread : Glob.tokensFrom 0 3 (some 'b') name = .ok read) :
    Glob.Segment.ofTokens (versionedTokens read) = .wild (versionedTokens read) := by
  have hnone : (versionedTokens read).contains .anyDirectories = false := by
    have hescaped : ∀ c, Glob.Token.anyDirectories ≠ Glob.escapeToken c := fun c =>
      (Glob.escapeToken_ne_anyDirectories c).symm
    have hname := Glob.anyDirectories_not_mem whole (by decide) hread
    simp [versionedTokens, hescaped, hname]
  have hstar : (versionedTokens read).mapM Glob.Token.char? = none := by
    rw [versionedTokens, ← List.append_assoc, ← List.append_assoc, List.mapM_append]
    generalize List.mapM Glob.Token.char? _ = chars
    cases chars <;> rfl
  rw [Glob.Segment.ofTokens, hnone, if_neg Bool.false_ne_true, hstar]

theorem head?_versionedTokens (read : List Glob.Token) :
    (versionedTokens read).head? = some (.char 'l') := rfl

theorem versionedPattern_eq (name : List Char) (directory : Path) :
    versionedPattern name directory =
      Glob.escape directory.chars ++ '/' :: ("lib".toList ++ name ++ ".so.*".toList) := by
  have hlib : "/lib".toList = '/' :: "lib".toList := by decide
  rw [versionedPattern, hlib]
  simp only [List.append_assoc, List.cons_append]

/-! ### Names that stand for themselves -/

/-- **A plain name** stands for itself and for nothing else. -/
theorem standsFor_iff_eq (literal : ∀ c ∈ name, Glob.isMeta c = false) {text : List Char} :
    StandsFor name text ↔ text = name := by
  have hread : Glob.tokensFrom 0 3 (some 'b') name = .ok (name.map Glob.escapeToken) := by
    have htokens := Glob.tokensFrom_escape_append name [] 3 (some 'b')
    rw [List.append_nil, Glob.escape_eq_self literal] at htokens
    rw [htokens]
    simp [Glob.tokensFrom, Except.map]
  unfold StandsFor
  rw [hread]
  simp [Glob.covers_map_escapeToken]

theorem matchesVersion_iff_of_literal (literal : ∀ c ∈ name, Glob.isMeta c = false)
    {file : List Char} :
    MatchesVersion name file ↔ "lib".toList ++ name ++ ".so.".toList <+: file := by
  simp only [MatchesVersion, standsFor_iff_eq literal]
  constructor
  · rintro ⟨_, version, rfl, rfl⟩
    exact List.prefix_append _ _
  · rintro ⟨version, rfl⟩
    exact ⟨name, version, rfl, rfl⟩

end Pattern

namespace World

variable {w : World} {name : List Char} {directory p : Path}

/-! ### Searching -/

/-- In the directory there is an entry that the pattern matches. -/
def HasMatch (w : World) (name : List Char) (directory : Path) (file : FileName) : Prop :=
  w.HasEntry directory file ∧ MatchesVersion name file.chars

/-- Of the entries that it matches this is the first one. -/
def IsFirstMatch (w : World) (name : List Char) (directory : Path) (file : FileName) : Prop :=
  w.HasMatch name directory file ∧
    ∀ other, w.HasMatch name directory other → nameLe file other = true

/-- If there is a pattern then the name can be read as a part of it. -/
theorem exists_read_of_glob (whole : '/' ∉ name) {found : List (Except Glob.Unlisted Path)}
    (h : w.glob (versionedPattern name directory) = .ok found) :
    ∃ read, Glob.tokensFrom 0 3 (some 'b') name = .ok read := by
  obtain ⟨pattern, hpattern, -⟩ := bind_eq_ok_iff.1 h
  have hreadable := (Glob.isPattern_iff _).1 ⟨pattern, hpattern⟩
  rw [versionedPattern_eq, Glob.isReadable_escape_append_iff] at hreadable
  obtain ⟨⟨tokens, htokens⟩, -⟩ := hreadable
  rw [tokens_versioned whole, map_eq_ok_iff] at htokens
  obtain ⟨read, hread, -⟩ := htokens
  exact ⟨read, hread⟩

/-- **What is found** is an entry that the pattern matches. -/
theorem exists_match_of_findVersioned (whole : '/' ∉ name)
    (h : w.findVersioned name directory = some p) :
    ∃ file : FileName, w.HasEntry (searched directory) file ∧
      p = entryPath (searched directory) file.path ∧ MatchesVersion name file.chars := by
  unfold findVersioned at h
  split at h
  · next found hfound =>
    have hp : .ok p ∈ found := by
      have hmem := Sorted.mem_ofList.1 (List.mem_of_head? h)
      obtain ⟨answer, hanswer, hok⟩ := List.mem_filterMap.1 hmem
      rwa [toOption_eq_some_iff.1 hok] at hanswer
    obtain ⟨read, hread⟩ := exists_read_of_glob whole hfound
    have hdot : (versionedTokens read).head? ≠ some (.char '.') := by
      rw [head?_versionedTokens]
      decide
    rw [versionedPattern_eq] at hfound
    obtain ⟨file, hentry, hpath, hcovers⟩ := exists_entry_of_mem_glob (whole_versioned whole) (by simp)
      (tokens_versioned_of_read whole hread) (ofTokens_versionedTokens whole hread) hdot hfound hp
    obtain ⟨text, version, hfile, htext⟩ := covers_versionedTokens.1 hcovers
    exact ⟨file, hentry, hpath, text, version, hfile, read, hread, htext⟩
  · cases h

/-- A name that cannot be read as a part of a pattern stands for nothing. -/
theorem not_matchesVersion_of_error {e : Glob.PatternError} {file : List Char}
    (h : Glob.tokensFrom 0 3 (some 'b') name = .error e) : ¬ MatchesVersion name file := by
  rintro ⟨text, version, -, read, hread, -⟩
  rw [h] at hread
  cases hread

theorem findVersioned_of_error {e : Glob.PatternError} (whole : '/' ∉ name)
    (h : Glob.tokensFrom 0 3 (some 'b') name = .error e) :
    w.findVersioned name directory = none := by
  rw [Option.eq_none_iff_forall_ne_some]
  intro p hp
  obtain ⟨file, -, -, hmatches⟩ := exists_match_of_findVersioned whole hp
  exact not_matchesVersion_of_error h hmatches

/-- The paths of the entries of a directory differ in their names only. -/
theorem exists_components_entryPath (filled : directory.chars ≠ []) : ∃ front, ∀ name : FileName,
    (entryPath directory name.path).components = front ++ [.name name.chars] := by
  unfold entryPath
  cases isDot directory with
  | true => exact ⟨[], fun name => Path.components_of_isName name.isName⟩
  | false => exact ⟨directory.components, Path.components_join_path filled⟩

/-- The answer is the first of all entries that the pattern matches, and there is none if the name
is no part of a pattern. -/
theorem exists_matches_searched (whole : '/' ∉ name) (hreached : w.IsReached directory) :
    ∃ names : List FileName, names.Nodup ∧
      (∀ file, file ∈ names ↔ w.HasMatch name (searched directory) file) ∧
      w.findVersioned name directory = (Sorted.ofList Path.le
        (names.map fun file => entryPath (searched directory) file.path)).head? := by
  cases hread : Glob.tokensFrom 0 3 (some 'b') name with
  | error e =>
      refine ⟨[], List.nodup_nil, fun file => ?_, findVersioned_of_error whole hread⟩
      exact ⟨fun h => absurd h List.not_mem_nil, fun h =>
        absurd h.2 (not_matchesVersion_of_error hread)⟩
  | ok read =>
      have hdots : PassDots (versionedTokens read) := by
        rw [PassDots, head?_versionedTokens]
        intro hhead
        exact absurd hhead (by decide)
      obtain ⟨names, hnodup, hnames, hfound⟩ :=
        expand_entries hdots hreached.isDirectory_searched
      refine ⟨names, hnodup, fun file => ?_, ?_⟩
      · rw [hnames, covers_versionedTokens, HasMatch, MatchesVersion]
        simp [StandsFor, hread]
      · have hlisted : ((names.map fun file => entryPath (searched directory) file.path).map
            (Except.ok (ε := Glob.Unlisted))).filterMap (·.toOption) =
              names.map fun file => entryPath (searched directory) file.path := by
          rw [List.filterMap_map]
          exact List.filterMap_some
        rw [findVersioned, versionedPattern_eq, hreached.glob (whole_versioned whole) (by simp)
          (tokens_versioned_of_read whole hread), ofTokens_versionedTokens whole hread, hfound]
        dsimp only
        rw [hlisted]

/-- There is an answer if there is a match. -/
theorem findVersioned_eq_none_iff_searched (whole : '/' ∉ name) (hreached : w.IsReached directory) :
    w.findVersioned name directory = none ↔
      ∀ file, ¬ w.HasMatch name (searched directory) file := by
  obtain ⟨names, -, hmatch, hfound⟩ := exists_matches_searched whole hreached
  rw [hfound, List.head?_eq_none_iff, List.eq_nil_iff_forall_not_mem]
  simp only [Sorted.mem_ofList, List.mem_map, ← hmatch]
  constructor
  · intro h file hfile
    exact h _ ⟨file, hfile, rfl⟩
  · rintro h _ ⟨file, hfile, -⟩
    exact h file hfile

/-- In the spelling in which it is shown a directory has the same matches. -/
theorem hasMatch_searched_iff (hdirectory : w.isDirectory directory = true)
    (hreached : w.IsReached directory) {file : FileName} :
    w.HasMatch name (searched directory) file ↔ w.HasMatch name directory file := by
  obtain ⟨children, hchildren⟩ := isDirectory_iff.1 hdirectory
  rw [HasMatch, HasMatch, hasEntry_iff, hasEntry_iff, hreached.find_searched hchildren, hchildren]

section Reached

variable (hdirectory : w.isDirectory directory = true) (whole : '/' ∉ name)
  (hreached : w.IsReached directory)

include hdirectory whole hreached

/-- **The first match is the answer**, and it is not asked what stands behind it. -/
theorem findVersioned_eq_some_iff_match :
    w.findVersioned name directory = some p ↔
      ∃ file, w.IsFirstMatch name directory file ∧
        p = entryPath (searched directory) file.path := by
  obtain ⟨children, hchildren⟩ := isDirectory_iff.1 hdirectory
  have hplace := (find_eq_ok_iff.1 (hreached.find_searched hchildren)).1.filled
  obtain ⟨front, hfront⟩ := exists_components_entryPath hplace
  have horder : ∀ file other : FileName, (entryPath (searched directory) file.path).le
      (entryPath (searched directory) other.path) = nameLe file other :=
    Path.le_of_components hfront
  obtain ⟨names, hnodup, hmatch, hfound⟩ := exists_matches_searched whole hreached
  simp only [hasMatch_searched_iff hdirectory hreached] at hmatch
  rw [hfound, Path.head?_ofList_eq_some_iff (Path.pairwise_of_components hfront hnodup)]
  simp only [List.mem_map, forall_exists_index, and_imp, forall_apply_eq_imp_iff₂]
  constructor
  · rintro ⟨⟨file, hfile, rfl⟩, hleast⟩
    refine ⟨file, ⟨(hmatch file).1 hfile, fun other hother => ?_⟩, rfl⟩
    rw [← horder]
    exact hleast other ((hmatch other).2 hother)
  · rintro ⟨file, ⟨hfile, hfirst⟩, rfl⟩
    refine ⟨⟨file, (hmatch file).2 hfile, rfl⟩, fun other hother => ?_⟩
    rw [horder]
    exact hfirst other ((hmatch other).1 hother)

theorem findVersioned_eq_none_iff_match :
    w.findVersioned name directory = none ↔ ∀ file, ¬ w.HasMatch name directory file := by
  rw [findVersioned_eq_none_iff_searched whole hreached]
  simp only [hasMatch_searched_iff hdirectory hreached]

end Reached

end World

end ExtensionPlan
