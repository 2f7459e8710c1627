import ExtensionPlan.Proofs.Library.Pattern

/-!
# ExtensionPlan.Proofs.Library

**From a name to a file and back.** Whichever of its forms the file of a library is found in
(`World.exists_fileName?_of_findLibrary`), it is linked by the name that was looked for
(`linkName?_of_findLibrary`). So no library that is found is left out when it is linked. Only an
archive that says in its name that it is static is linked by a longer name.

The way back cuts the file name at the *first* mark of a shared object, and an ending only where
there is no mark. That the mark is nowhere before its place rests on
`Text.not_marked_append`: the mark cannot lie across a seam after which there is neither an `s` nor
an `o`.
-/

namespace ExtensionPlan

namespace Text

/-! ### Marks and endings -/

theorem before?_eq_none {mark text : List Char} (hmark : mark ≠ []) (h : ¬ mark <:+: text) :
    before? mark text = none := by
  induction text with
  | nil => simp [before?, hmark]
  | cons c rest ih =>
      rw [List.infix_cons_iff, not_or] at h
      obtain ⟨hbegins, hrest⟩ := h
      have hnot : mark.isPrefixOf (c :: rest) = false := by
        rw [← Bool.not_eq_true, List.isPrefixOf_iff_prefix]
        exact hbegins
      rw [before?, hnot, ih hrest]
      rfl

/-- The mark of a shared object. It has no end that it also begins with. -/
abbrev sharedMark : List Char := ['.', 's', 'o']

theorem not_marked_of_not_mem {text : List Char} (h : '.' ∉ text) : ¬ sharedMark <:+: text := by
  intro hmark
  exact h (hmark.subset List.mem_cons_self)

/-- If a mark begins in the front then all of it is there, since what follows does not go on
like it. -/
theorem sharedMark_of_append (front : List Char) {back : List Char} (hs : back.head? ≠ some 's')
    (ho : back.head? ≠ some 'o') (hfront : front ≠ []) (h : sharedMark <+: front ++ back) :
    sharedMark <+: front := by
  obtain ⟨rest, hrest⟩ := h
  match front, hfront with
  | [_], _ =>
      cases back with
      | nil => cases hrest
      | cons d back =>
          cases hrest
          exact absurd rfl hs
  | [_, _], _ =>
      cases back with
      | nil => cases hrest
      | cons d back =>
          cases hrest
          exact absurd rfl ho
  | a :: b :: c :: front, _ =>
      simp only [List.cons_append, List.cons.injEq, List.nil_append] at hrest
      obtain ⟨rfl, rfl, rfl, -⟩ := hrest
      exact ⟨front, rfl⟩

/-- No mark lies across the seam of two texts of which the second begins otherwise. -/
theorem not_marked_append {front back : List Char} (hs : back.head? ≠ some 's')
    (ho : back.head? ≠ some 'o') (hfront : ¬ sharedMark <:+: front)
    (hback : ¬ sharedMark <:+: back) : ¬ sharedMark <:+: front ++ back := by
  induction front with
  | nil => exact hback
  | cons c front ih =>
      intro h
      rw [List.infix_cons_iff, not_or] at hfront
      obtain ⟨hbegins, hrest⟩ := hfront
      rcases List.infix_cons_iff.1 h with h | h
      · exact hbegins (sharedMark_of_append (c :: front) hs ho (List.cons_ne_nil c front) h)
      · exact ih hrest h

/-- A mark that begins with a dot cannot begin in `lib`. -/
theorem not_marked_lib_append {text : List Char} (h : ¬ sharedMark <:+: text) :
    ¬ sharedMark <:+: "lib".toList ++ text := by
  intro hmark
  exact h (by simpa [List.infix_cons_iff] using hmark)

/-- What stands before the first mark. -/
theorem before?_sharedMark {stem : List Char} (h : ¬ sharedMark <:+: stem) (rest : List Char) :
    before? sharedMark (stem ++ (sharedMark ++ rest)) = some stem := by
  induction stem with
  | nil => rfl
  | cons c stem ih =>
      rw [List.infix_cons_iff, not_or] at h
      obtain ⟨hbegins, hstem⟩ := h
      have hnot : sharedMark.isPrefixOf (c :: (stem ++ (sharedMark ++ rest))) = false := by
        rw [← Bool.not_eq_true, List.isPrefixOf_iff_prefix]
        intro hmark
        exact hbegins (sharedMark_of_append (c :: stem) (by simp) (by simp)
          (List.cons_ne_nil c stem) hmark)
      rw [List.cons_append, before?, hnot, ih hstem]
      rfl

theorem dropEnding?_append (stem ending : List Char) :
    dropEnding? ending (stem ++ ending) = some stem := by
  have hends : ending.isSuffixOf (stem ++ ending) = true :=
    List.isSuffixOf_iff_suffix.2 (List.suffix_append stem ending)
  rw [dropEnding?, hends]
  simp

theorem dropEnding?_eq_none {ending text : List Char} (h : ¬ ending <:+ text) :
    dropEnding? ending text = none := by
  rw [dropEnding?, if_neg]
  rwa [List.isSuffixOf_iff_suffix]

/-- A text has no other ending than it has, unless one is the end of the other. -/
theorem dropEnding?_append_eq_none {ending back : List Char} (stem : List Char)
    (hending : ¬ ending <:+ back) (hback : ¬ back <:+ ending) :
    dropEnding? ending (stem ++ back) = none := by
  refine dropEnding?_eq_none fun h => ?_
  rcases List.suffix_or_suffix_of_suffix h (List.suffix_append stem back) with h | h
  · exact hending h
  · exact hback h

end Text

/-! ### The stem of a file name -/

theorem libraryStem?_shared {stem : List Char} (h : ¬ Text.sharedMark <:+: stem)
    (rest : List Char) : libraryStem? (stem ++ (Text.sharedMark ++ rest)) = some stem := by
  have hmark : Text.before? ".so".toList (stem ++ (Text.sharedMark ++ rest)) = some stem :=
    Text.before?_sharedMark h rest
  rw [libraryStem?, hmark]
  rfl

/-- The stem of a file that is no shared object is what stands before its ending. -/
theorem libraryStem?_append {stem ending : List Char}
    (hending : ending ∈ [".a".toList, ".dylib".toList, ".lib".toList])
    (h : ¬ Text.sharedMark <:+: stem) : libraryStem? (stem ++ ending) = some stem := by
  have hclean : ∀ ending ∈ [".a".toList, ".dylib".toList, ".lib".toList],
      ending.head? ≠ some 's' ∧ ending.head? ≠ some 'o' ∧ ¬ Text.sharedMark <:+: ending := by
    decide +kernel
  obtain ⟨hs, ho, hmark⟩ := hclean ending hending
  have hnone : Text.before? ".so".toList (stem ++ ending) = none :=
    Text.before?_eq_none (by decide) (Text.not_marked_append hs ho h hmark)
  rw [libraryStem?, hnone]
  simp only [List.mem_cons, List.not_mem_nil, or_false] at hending
  rcases hending with rfl | rfl | rfl
  · rw [Text.dropEnding?_append]
    rfl
  · rw [Text.dropEnding?_append_eq_none stem (by decide) (by decide), Text.dropEnding?_append]
    rfl
  · rw [Text.dropEnding?_append_eq_none stem (by decide) (by decide),
      Text.dropEnding?_append_eq_none stem (by decide) (by decide), Text.dropEnding?_append]
    rfl

/-! ### The forms of a file name -/

/-- A name for which a library can be searched and found again: it is a part of a path that
matches only itself, and neither does the mark of a shared object end it too early nor is it taken
for a name that is spelled with its `lib`. -/
structure IsLinkName (name : List Char) : Prop where
  filled : name ≠ []
  whole : '/' ∉ name
  literal : ∀ c ∈ name, Glob.isMeta c = false
  unmarked : ¬ Text.sharedMark <:+: name
  bare : ¬ "lib".toList <+: name

/-- The name of the archive that says that it is static. -/
def staticFileName (name : List Char) : List Char := "lib".toList ++ name ++ "_static.a".toList

/-- A library of the name may have a file of this name: one of the fixed forms, or a shared object
with a version. -/
def IsLibraryFileName (name file : List Char) : Prop :=
  file ∈ libraryFileNames name ∨ "lib".toList ++ name ++ ".so.".toList <+: file

/-- Every form adds some characters to the name. -/
theorem IsLibraryFileName.lt_length {name file : List Char} (h : IsLibraryFileName name file) :
    name.length + 3 < file.length := by
  rcases h with h | h
  · simp only [libraryFileNames, List.mem_cons, List.not_mem_nil, or_false] at h
    rcases h with rfl | rfl | rfl | rfl | rfl
    all_goals simp
  · have hle := h.length_le
    simp at hle
    omega

theorem linkName?_of_libraryStem? {p : Path} {file stem name : List Char}
    (hfile : p.fileName? = some file) (hstem : libraryStem? file = some stem) (hname : name ≠ [])
    (h : (if "lib".toList.isPrefixOf stem then stem.drop 3 else stem) = name) :
    linkName? p = some (.ofList name) := by
  have hfilled : name.isEmpty = false := by simpa using hname
  simp only [linkName?, hfile, hstem, Option.bind_eq_bind, Option.bind_some, h, hfilled]
  rfl

namespace IsLinkName

variable {name : List Char}

/-- The mark is not in what stands before an ending either. -/
theorem not_marked_lib (h : IsLinkName name) :
    ¬ Text.sharedMark <:+: "lib".toList ++ name := Text.not_marked_lib_append h.unmarked

/-- The archive that says that it is static keeps saying so once its ending is off. -/
theorem libraryStem?_staticFileName (h : IsLinkName name) :
    libraryStem? (staticFileName name) = some ("lib".toList ++ (name ++ "_static".toList)) := by
  have hstem : ¬ Text.sharedMark <:+: "lib".toList ++ (name ++ "_static".toList) := by
    rw [← List.append_assoc]
    exact Text.not_marked_append (by decide) (by decide) h.not_marked_lib
      (Text.not_marked_of_not_mem (by decide))
  have hfile : staticFileName name =
      "lib".toList ++ (name ++ "_static".toList) ++ ".a".toList := by
    have hending : "_static.a".toList = "_static".toList ++ ".a".toList := by decide
    rw [staticFileName, hending]
    simp only [List.append_assoc]
  rw [hfile]
  exact libraryStem?_append (by simp) hstem

/-- A version goes with the mark that stands before it. -/
theorem libraryStem?_versioned (h : IsLinkName name) (version : List Char) :
    libraryStem? ("lib".toList ++ name ++ ".so.".toList ++ version) =
      some ("lib".toList ++ name) := by
  have hfile : "lib".toList ++ name ++ ".so.".toList ++ version =
      "lib".toList ++ name ++ (Text.sharedMark ++ '.' :: version) := by
    have hmark : ".so.".toList = Text.sharedMark ++ ['.'] := by decide
    rw [hmark]
    simp only [List.append_assoc, List.singleton_append]
  rw [hfile]
  exact libraryStem?_shared h.not_marked_lib _

/-- A stem that is spelled with its `lib` is cut after it. -/
theorem linkName?_of_lib {p : Path} {file stem : List Char} (hp : p.fileName? = some file)
    (hstem : libraryStem? file = some ("lib".toList ++ stem)) (hne : stem ≠ []) :
    linkName? p = some (.ofList stem) :=
  linkName?_of_libraryStem? hp hstem hne rfl

/-- A stem that is spelled without it stays as it is. -/
theorem linkName?_of_bare (h : IsLinkName name) {p : Path} {file : List Char}
    (hp : p.fileName? = some file) (hstem : libraryStem? file = some name) :
    linkName? p = some (.ofList name) := by
  have hbare : "lib".toList.isPrefixOf name = false := by
    rw [← Bool.not_eq_true, List.isPrefixOf_iff_prefix]
    exact h.bare
  exact linkName?_of_libraryStem? hp hstem h.filled (by rw [hbare]; rfl)

theorem append_ne_staticFileName {ending : List Char} (h : ending ≠ "_static.a".toList)
    (name : List Char) : "lib".toList ++ name ++ ending ≠ staticFileName name := by
  intro heq
  exact h (List.append_cancel_left heq)

/-- The file without `lib` has another ending than the static archive. -/
theorem append_lib_ne_staticFileName (name : List Char) :
    name ++ ".lib".toList ≠ staticFileName name := by
  intro heq
  have hlib : ".lib".toList <:+ staticFileName name := ⟨name, heq⟩
  have hstatic : "_static.a".toList <:+ staticFileName name := List.suffix_append _ _
  rcases List.suffix_or_suffix_of_suffix hlib hstatic with hsuffix | hsuffix
  · exact absurd hsuffix (by decide)
  · exact absurd hsuffix (by decide)

/-- **The way back.** A file of a library is linked by the library's name, and the archive that
says that it is static by that as well. -/
theorem linkName?_eq (h : IsLinkName name) {p : Path} {file : List Char}
    (hp : p.fileName? = some file) (hfile : IsLibraryFileName name file) :
    linkName? p = some (.ofList
      (if file = staticFileName name then name ++ "_static".toList else name)) := by
  have hstem := h.not_marked_lib
  rcases hfile with hfile | hfile
  · simp only [libraryFileNames, List.mem_cons, List.not_mem_nil, or_false] at hfile
    rcases hfile with rfl | rfl | rfl | rfl | rfl
    · rw [if_neg (append_ne_staticFileName (by decide) name)]
      exact linkName?_of_lib hp (libraryStem?_shared hstem []) h.filled
    · rw [if_neg (append_ne_staticFileName (by decide) name)]
      exact linkName?_of_lib hp (libraryStem?_append (by simp) hstem) h.filled
    · rw [if_neg (append_lib_ne_staticFileName name)]
      exact h.linkName?_of_bare hp (libraryStem?_append (by simp) h.unmarked)
    · rw [if_neg (append_ne_staticFileName (by decide) name)]
      exact linkName?_of_lib hp (libraryStem?_append (by simp) hstem) h.filled
    · have hsame : "lib".toList ++ name ++ "_static.a".toList = staticFileName name := rfl
      rw [if_pos hsame]
      exact linkName?_of_lib hp h.libraryStem?_staticFileName (by simp)
  · obtain ⟨version, rfl⟩ := hfile
    have hother : "lib".toList ++ name ++ ".so.".toList ++ version ≠ staticFileName name := by
      rw [List.append_assoc]
      exact append_ne_staticFileName (fun heq => by cases heq) name
    rw [if_neg hother]
    exact linkName?_of_lib hp (h.libraryStem?_versioned version) h.filled

end IsLinkName

/-! ### Searching -/

section Search

variable {w : World} {name : List Char}

namespace World

/-- A versioned shared object is an entry with a name that its pattern begins with. -/
theorem exists_entry_of_findVersioned {directory p : Path} (whole : '/' ∉ name)
    (literal : ∀ c ∈ name, Glob.isMeta c = false)
    (h : w.findVersioned name directory = some p) :
    ∃ file : FileName, w.HasEntry (searched directory) file ∧
      p = entryPath (searched directory) file.path ∧
        "lib".toList ++ name ++ ".so.".toList <+: file.chars := by
  obtain ⟨file, hentry, hpath, hmatches⟩ := exists_match_of_findVersioned whole h
  exact ⟨file, hentry, hpath, (matchesVersion_iff_of_literal literal).1 hmatches⟩

/-- None of the fixed forms is a name that leads elsewhere. -/
theorem isName_of_mem_libraryFileNames {file : List Char} (whole : '/' ∉ name)
    (h : file ∈ libraryFileNames name) : IsName file := by
  have hlong : name.length + 3 < file.length := IsLibraryFileName.lt_length (Or.inl h)
  have hwhole : '/' ∉ file := by
    simp only [libraryFileNames, List.mem_cons, List.not_mem_nil, or_false] at h
    rcases h with rfl | rfl | rfl | rfl | rfl
    all_goals simp [whole]
  exact IsName.of_length (by omega) hwhole

theorem exists_fileName?_of_findLibraryIn {directory p : Path} (whole : '/' ∉ name)
    (literal : ∀ c ∈ name, Glob.isMeta c = false)
    (h : w.findLibraryIn name directory = some p) :
    ∃ file, p.fileName? = some file ∧ IsLibraryFileName name file := by
  unfold findLibraryIn at h
  cases hfixed : ((libraryFileNames name).map fun file => directory.join ⟨file⟩).find? w.isFile with
  | some q =>
      rw [hfixed] at h
      cases h
      obtain ⟨file, hfile, rfl⟩ := List.mem_map.1 (List.mem_of_find?_eq_some hfixed)
      have hname := isName_of_mem_libraryFileNames whole hfile
      exact ⟨file, Path.fileName?_join directory hname, Or.inl hfile⟩
  | none =>
      rw [hfixed] at h
      obtain ⟨file, -, rfl, hfile⟩ := exists_entry_of_findVersioned whole literal h
      exact ⟨file.chars, fileName?_entryPath _ file.isName, Or.inr hfile⟩

theorem exists_directory_of_findLibrary {name : String} {directories : List Path} {p : Path}
    (h : w.findLibrary name directories = .ok p) :
    ∃ directory ∈ directories, w.findLibraryIn name.toList directory = some p := by
  unfold findLibrary at h
  split at h
  · next q hq =>
    cases h
    exact List.exists_of_findSome?_eq_some hq
  · cases h

/-- **What is found.** The file of a library has one of the forms of its name. -/
theorem exists_fileName?_of_findLibrary {name : String} {directories : List Path} {p : Path}
    (whole : '/' ∉ name.toList) (literal : ∀ c ∈ name.toList, Glob.isMeta c = false)
    (h : w.findLibrary name directories = .ok p) :
    ∃ file, p.fileName? = some file ∧ IsLibraryFileName name.toList file := by
  obtain ⟨directory, -, hdirectory⟩ := exists_directory_of_findLibrary h
  exact exists_fileName?_of_findLibraryIn whole literal hdirectory

end World

end Search

/-- The name by which a library is linked if it is found in the file. -/
def linkedName (name : String) (file : Path) : String :=
  if file.fileName? = some (staticFileName name.toList) then name ++ "_static" else name

/-- **There and back.** A library that is found is linked, and by the name it was found by. -/
theorem linkName?_of_findLibrary {w : World} {name : String} {directories : List Path}
    {p : Path} (hname : IsLinkName name.toList) (h : w.findLibrary name directories = .ok p) :
    linkName? p = some (linkedName name p) := by
  obtain ⟨file, hp, hfile⟩ := w.exists_fileName?_of_findLibrary hname.whole hname.literal h
  rw [hname.linkName?_eq hp hfile, linkedName, hp]
  by_cases hstatic : file = staticFileName name.toList
  · simp [hstatic]
  · simp [hstatic]

/-! ### Kinds of files -/

/-- Is the file a static archive by the ending of its name? -/
def Path.isArchive (file : Path) : Bool :=
  file.fileName?.any fun name => ".a".toList.isSuffixOf name || ".lib".toList.isSuffixOf name

/-- The kind of a library is that of its first file. -/
theorem LibraryHandle.kind_ofFiles_cons {w : World} {name : String} {dirs : List Path}
    {file : Path} (hname : IsLinkName name.toList) (h : w.findLibrary name dirs = .ok file)
    (title : String) (files : List Path) :
    (ofFiles title (file :: files)).kind = .static ↔ file.isArchive = true := by
  obtain ⟨fileName, hfile, hform⟩ := w.exists_fileName?_of_findLibrary hname.whole hname.literal h
  have hlong := hform.lt_length
  have hfilled := List.length_pos_iff.2 hname.filled
  have ha : file.extension? = some ['a'] ↔ ".a".toList <:+ fileName :=
    Path.extension?_eq_some_iff_suffix hfile (by decide)
      (by simp only [List.length_cons, List.length_nil]; omega)
  have hlib : file.extension? = some ['l', 'i', 'b'] ↔ ".lib".toList <:+ fileName :=
    Path.extension?_eq_some_iff_suffix hfile (by decide)
      (by simp only [List.length_cons, List.length_nil]; omega)
  have harchive : file.isArchive = true ↔
      file.extension? = some ['a'] ∨ file.extension? = some ['l', 'i', 'b'] := by
    rw [ha, hlib, Path.isArchive, hfile]
    simp
  rw [harchive, ofFiles, List.head?_cons, Option.bind_some]
  dsimp only
  split
  · next hext => simp [hext]
  · next hext => simp [hext]
  · next hnot hnot' => simpa using ⟨hnot, hnot'⟩

/-! ### Several libraries -/

/-- The files that optional libraries are found in. -/
def World.foundFiles (w : World) (dirs : List Path) (names : List String) : List Path :=
  names.filterMap fun name => (w.findLibrary name dirs).toOption

/-- The names that optional libraries are linked by if they are found. -/
def World.foundNames (w : World) (dirs : List Path) (names : List String) : List String :=
  names.filterMap fun name => (w.findLibrary name dirs).toOption.map (linkedName name)

theorem World.exists_of_mem_foundFiles {w : World} {dirs : List Path} {names : List String}
    {file : Path} (h : file ∈ w.foundFiles dirs names) :
    ∃ name ∈ names, w.findLibrary name dirs = .ok file := by
  obtain ⟨name, hname, hfound⟩ := List.mem_filterMap.1 h
  exact ⟨name, hname, toOption_eq_some_iff.1 hfound⟩

/-- They are those of exactly the names that are found, in their order. -/
theorem World.forall₂_foundFiles (w : World) (dirs : List Path) (names : List String) :
    List.Forall₂ (fun name file => w.findLibrary name dirs = .ok file)
      (names.filter fun name => (w.findLibrary name dirs).isOk) (w.foundFiles dirs names) := by
  induction names with
  | nil => exact .nil
  | cons name names ih =>
      rw [foundFiles, List.filterMap_cons, List.filter_cons]
      cases hfound : w.findLibrary name dirs with
      | error e => exact ih
      | ok file => exact .cons hfound ih

theorem World.filterMap_linkName?_foundFiles {w : World} {dirs : List Path} {names : List String}
    (h : ∀ name ∈ names, IsLinkName name.toList) :
    (w.foundFiles dirs names).filterMap linkName? = w.foundNames dirs names := by
  unfold foundFiles foundNames
  rw [List.filterMap_filterMap]
  refine List.filterMap_congr fun name hname => ?_
  cases hfound : w.findLibrary name dirs with
  | error e => rfl
  | ok file => exact linkName?_of_findLibrary (h name hname) hfound

end ExtensionPlan
