import ExtensionPlan.Proofs.Library

/-!
# ExtensionPlan.Proofs.Library.LinkName

**The link names of files.** A file that has a link name should be a library file of that name: up
to `lib` in front, its name is the link name and one of the endings of libraries
(`Path.IsLibraryOf`). The ending of a shared object may go on with a version, which is set off by a
dot. The name is however cut at the first mark of a shared object whatever comes behind it, so
`libfoo.sock` is taken for a library. `linksFaithfully_iff` says which files these are: something
other than a dot stands behind the first mark, and what stands before it is more than `lib`.

The inversion of each step of `linkName?` says all that the step can do (`Text.before?_eq_some_iff`,
`Text.dropEnding?_eq_some_iff`, `libraryStem?_eq_some_iff`, `linkName?_eq_some_iff`).

A file that was found by a name has that name for its link name, and which of the two it is where it
says that it is static can be told from the form of its name alone, since that form is no other
(`linkName?_of_findLibrary_iff`).
-/

namespace ExtensionPlan

/-! ### What a link name should be -/

/-- The endings of library files: those without a version, and the mark of a shared object with
a version behind it. -/
def IsLibraryEnding (ending : List Char) : Prop :=
  ending ∈ [".so".toList, ".a".toList, ".dylib".toList, ".lib".toList] ∨ ".so.".toList <+: ending

/-- The file is a library of the name, spelled with `lib` or without. -/
def Path.IsLibraryOf (file : Path) (name : List Char) : Prop :=
  name ≠ [] ∧ ∃ ending, IsLibraryEnding ending ∧
    (file.fileName? = some (name ++ ending) ∨
      file.fileName? = some ("lib".toList ++ name ++ ending))

/-- If the file has a link name, it is a library of that name. -/
def LinksFaithfully (file : Path) : Prop :=
  ∀ name, linkName? file = some name → file.IsLibraryOf name.toList

/-- Something other than a version stands behind the first mark of a shared object. -/
def Path.IsCutShort (file : Path) : Prop :=
  ∃ stem c rest, file.fileName? = some (stem ++ (Text.sharedMark ++ c :: rest)) ∧
    ¬ Text.sharedMark <:+: stem ∧ c ≠ '.' ∧ stem ≠ [] ∧ stem ≠ "lib".toList

/-! ### What a link name is -/

namespace Text

variable {mark ending text stem : List Char}

/-- What is cut off begins with the mark, and the mark is not before. -/
theorem exists_of_before?_eq_some (hmark : mark ≠ []) (h : before? mark text = some stem) :
    ∃ rest, text = stem ++ (mark ++ rest) ∧ ¬ mark <:+: stem := by
  induction text generalizing stem with
  | nil => simp [before?, hmark] at h
  | cons c rest ih =>
      unfold before? at h
      split at h
      · next hbegins =>
        cases h
        obtain ⟨back, hback⟩ := List.isPrefixOf_iff_prefix.1 hbegins
        exact ⟨back, hback.symm, by simpa using hmark⟩
      · next hbegins =>
        obtain ⟨front, hfront, rfl⟩ := Option.map_eq_some_iff.1 h
        obtain ⟨back, rfl, hunmarked⟩ := ih hfront
        refine ⟨back, rfl, ?_⟩
        rw [List.infix_cons_iff, not_or]
        refine ⟨fun hahead => hbegins ?_, hunmarked⟩
        exact List.isPrefixOf_iff_prefix.2 (hahead.trans (List.prefix_append (c :: front) _))

/-- There is nothing before a mark if and only if there is no mark. -/
theorem before?_eq_none_iff (hmark : mark ≠ []) : before? mark text = none ↔ ¬ mark <:+: text := by
  constructor
  · intro h
    induction text with
    | nil => simpa using hmark
    | cons c rest ih =>
        unfold before? at h
        split at h
        · cases h
        · next hbegins =>
          rw [List.infix_cons_iff, not_or]
          refine ⟨fun hprefix => hbegins (List.isPrefixOf_iff_prefix.2 hprefix), ?_⟩
          exact ih (Option.map_eq_none_iff.1 h)
  · exact before?_eq_none hmark

theorem before?_eq_some_iff :
    before? sharedMark text = some stem ↔
      ∃ rest, text = stem ++ (sharedMark ++ rest) ∧ ¬ sharedMark <:+: stem := by
  constructor
  · exact exists_of_before?_eq_some (by simp)
  · intro ⟨rest, htext, hstem⟩
    rw [htext, before?_sharedMark hstem]

theorem dropEnding?_eq_some_iff : dropEnding? ending text = some stem ↔ text = stem ++ ending := by
  constructor
  · intro h
    unfold dropEnding? at h
    split at h
    · next hends =>
      obtain ⟨front, rfl⟩ := List.isSuffixOf_iff_suffix.1 hends
      simpa using h
    · cases h
  · intro h
    rw [h, dropEnding?_append]

end Text

/-- A stem is what stands before the first mark of a shared object, or before another ending if
there is no mark. -/
theorem libraryStem?_eq_some_iff {file stem : List Char} :
    libraryStem? file = some stem ↔ ¬ Text.sharedMark <:+: stem ∧
      ((∃ rest, file = stem ++ (Text.sharedMark ++ rest)) ∨
        ∃ ending ∈ [".a".toList, ".dylib".toList, ".lib".toList], file = stem ++ ending) := by
  constructor
  · intro h
    unfold libraryStem? at h
    cases hmark : Text.before? ".so".toList file with
    | some stem' =>
        rw [hmark] at h
        cases h
        obtain ⟨rest, hfile, hstem⟩ := Text.before?_eq_some_iff.1 hmark
        exact ⟨hstem, Or.inl ⟨rest, hfile⟩⟩
    | none =>
        rw [hmark] at h
        simp only [Option.orElse_eq_orElse, Option.orElse_eq_or, Option.none_or,
          Option.or_eq_some_iff, Text.dropEnding?_eq_some_iff] at h
        have hends : ∃ ending ∈ [".a".toList, ".dylib".toList, ".lib".toList],
            file = stem ++ ending := by
          rcases h with h | ⟨-, h | ⟨-, h⟩⟩
          · exact ⟨_, by simp, h⟩
          · exact ⟨_, by simp, h⟩
          · exact ⟨_, by simp, h⟩
        refine ⟨fun hstem => ?_, Or.inr hends⟩
        obtain ⟨ending, -, rfl⟩ := hends
        exact (Text.before?_eq_none_iff (by decide)).1 hmark
          (hstem.trans (List.prefix_append stem ending).isInfix)
  · intro ⟨hstem, h⟩
    rcases h with ⟨rest, rfl⟩ | ⟨ending, hending, rfl⟩
    · exact libraryStem?_shared hstem rest
    · exact libraryStem?_append hending hstem

/-- A link name is a stem without the `lib` that it may begin with. -/
theorem linkName?_eq_some_iff {file : Path} {name : String} :
    linkName? file = some name ↔ name.toList ≠ [] ∧ ∃ fileName, file.fileName? = some fileName ∧
      (libraryStem? fileName = some ("lib".toList ++ name.toList) ∨
        libraryStem? fileName = some name.toList ∧ ¬ "lib".toList <+: name.toList) := by
  constructor
  · intro h
    simp only [linkName?, Option.bind_eq_bind, Option.bind_eq_some_iff,
      Option.ite_none_left_eq_some, Option.some.injEq, List.isEmpty_iff] at h
    obtain ⟨fileName, hfile, stem, hstem, hfilled, rfl⟩ := h
    rw [String.toList_ofList]
    refine ⟨hfilled, fileName, hfile, ?_⟩
    split
    · next hlib =>
      obtain ⟨back, rfl⟩ := List.isPrefixOf_iff_prefix.1 hlib
      exact Or.inl hstem
    · next hlib =>
      exact Or.inr ⟨hstem, fun h => hlib (List.isPrefixOf_iff_prefix.2 h)⟩
  · intro h
    obtain ⟨hfilled, fileName, hfile, hstem⟩ := h
    rw [← String.ofList_toList (s := name)]
    rcases hstem with hstem | ⟨hstem, hlib⟩
    · exact linkName?_of_libraryStem? hfile hstem hfilled rfl
    · refine linkName?_of_libraryStem? hfile hstem hfilled ?_
      rw [if_neg]
      rwa [List.isPrefixOf_iff_prefix]

/-! ### Where a link name is right -/

/-- An ending is the whole mark, a version behind it or none of both. -/
theorem isLibraryEnding_mark_append {rest : List Char} :
    IsLibraryEnding (Text.sharedMark ++ rest) ↔ rest = [] ∨ rest.head? = some '.' := by
  cases rest with
  | nil => simp [IsLibraryEnding]
  | cons c rest =>
      simp [IsLibraryEnding, eq_comm]

/-- The stem of a library is its name, with `lib` or without. -/
theorem Path.IsLibraryOf.of_stem {file : Path} {fileName stem ending name : List Char}
    (hfile : file.fileName? = some fileName) (hname : fileName = stem ++ ending)
    (hending : IsLibraryEnding ending) (hfilled : name ≠ [])
    (hstem : stem = "lib".toList ++ name ∨ stem = name) : file.IsLibraryOf name := by
  refine ⟨hfilled, ending, hending, ?_⟩
  rw [hfile, hname]
  rcases hstem with rfl | rfl
  · exact Or.inr rfl
  · exact Or.inl rfl

/-- Where nothing but a version stands behind the first mark, the link name is right. -/
theorem linksFaithfully_of_not_isCutShort {file : Path} (h : ¬ file.IsCutShort) :
    LinksFaithfully file := by
  intro name hname
  obtain ⟨hfilled, fileName, hfile, hstem⟩ := linkName?_eq_some_iff.1 hname
  have hstem : ∃ stem, libraryStem? fileName = some stem ∧ stem ≠ [] ∧ stem ≠ "lib".toList ∧
      (stem = "lib".toList ++ name.toList ∨ stem = name.toList) := by
    rcases hstem with hstem | ⟨hstem, hbare⟩
    · exact ⟨_, hstem, by simp, by simpa using hfilled, Or.inl rfl⟩
    · exact ⟨_, hstem, hfilled, fun hlib => hbare (hlib ▸ List.prefix_rfl), Or.inr rfl⟩
  obtain ⟨stem, hstem, hne, hlib, hspelled⟩ := hstem
  obtain ⟨hunmarked, hcut⟩ := libraryStem?_eq_some_iff.1 hstem
  rcases hcut with ⟨rest, heq⟩ | ⟨ending, hending, heq⟩
  · refine .of_stem hfile heq (isLibraryEnding_mark_append.2 ?_) hfilled hspelled
    cases rest with
    | nil => exact Or.inl rfl
    | cons c rest =>
        refine Or.inr (congrArg some ?_)
        by_contra hc
        exact h ⟨stem, c, rest, by rw [hfile, heq], hunmarked, hc, hne, hlib⟩
  · refine .of_stem hfile heq (Or.inl ?_) hfilled hspelled
    simp only [List.mem_cons, List.not_mem_nil, or_false] at hending ⊢
    exact Or.inr hending

/-- An ending that is longer than those without a version begins with the mark. -/
theorem IsLibraryEnding.mark_prefix {ending : List Char} (h : IsLibraryEnding ending)
    (hlong : ".dylib".toList.length < ending.length) : Text.sharedMark <+: ending := by
  rcases h with h | h
  · simp only [List.mem_cons, List.not_mem_nil, or_false] at h
    rcases h with rfl | rfl | rfl | rfl
    all_goals simp at hlong
  · exact List.IsPrefix.trans ⟨['.'], rfl⟩ h

/-- What is cut short after `lib` and a name is no library of that name. -/
theorem not_isLibraryOf_of_lib {file : Path} {name rest : List Char} {c : Char}
    (hfile : file.fileName? = some ("lib".toList ++ name ++ (Text.sharedMark ++ c :: rest)))
    (hunmarked : ¬ Text.sharedMark <:+: "lib".toList ++ name) (hc : c ≠ '.') :
    ¬ file.IsLibraryOf name := by
  intro ⟨_, ending, hending, h⟩
  rw [hfile, Option.some.injEq, Option.some.injEq] at h
  rcases h with h | h
  · -- spelled without `lib`, its ending would begin with a mark that is in the stem
    have hlength := congrArg List.length h
    simp only [List.length_append, List.length_cons] at hlength
    obtain ⟨back, rfl⟩ := hending.mark_prefix (by simp at hlength ⊢; omega)
    rw [← List.append_assoc name] at h
    have hstem : "lib".toList ++ name = name ++ Text.sharedMark :=
      (List.append_inj h (by simp)).1
    exact hunmarked (hstem ▸ (List.suffix_append name Text.sharedMark).isInfix)
  · rw [← List.append_cancel_left h, isLibraryEnding_mark_append] at hending
    simp [hc] at hending

/-- What is cut short after a name without `lib` is no library of that name. -/
theorem not_isLibraryOf_of_bare {file : Path} {name rest : List Char} {c : Char}
    (hfile : file.fileName? = some (name ++ (Text.sharedMark ++ c :: rest)))
    (hbare : ¬ "lib".toList <+: name) (hc : c ≠ '.') : ¬ file.IsLibraryOf name := by
  intro ⟨hfilled, ending, hending, h⟩
  rw [hfile, Option.some.injEq, Option.some.injEq] at h
  rcases h with h | h
  · rw [← List.append_cancel_left h, isLibraryEnding_mark_append] at hending
    simp [hc] at hending
  · have hlib : "lib".toList <+: name ++ (Text.sharedMark ++ c :: rest) := by
      rw [h, List.append_assoc]
      exact List.prefix_append _ _
    rcases List.prefix_or_prefix_of_prefix hlib (List.prefix_append name _) with hlib | hname
    · exact hbare hlib
    · obtain ⟨back, hback⟩ := hname
      cases back with
      | nil =>
          rw [List.append_nil] at hback
          exact hbare (hback ▸ List.prefix_rfl)
      | cons d back =>
          -- the mark would have to begin in `lib`
          rw [← hback, List.append_assoc, List.append_assoc] at h
          obtain rfl : '.' = d := (List.cons.inj (List.append_cancel_left h)).1
          exact absurd (hback ▸ List.mem_append_right name List.mem_cons_self) (by decide)

theorem linksFaithfully_iff_not_isCutShort {file : Path} :
    LinksFaithfully file ↔ ¬ file.IsCutShort := by
  refine ⟨fun h hshort => ?_, linksFaithfully_of_not_isCutShort⟩
  obtain ⟨stem, c, rest, hfile, hunmarked, hc, hne, hlib⟩ := hshort
  have hstem := libraryStem?_shared hunmarked (c :: rest)
  by_cases hprefix : "lib".toList <+: stem
  · obtain ⟨name, rfl⟩ := hprefix
    have hfilled : name ≠ [] := by simpa using hlib
    refine not_isLibraryOf_of_lib hfile hunmarked hc ?_
    rw [← String.toList_ofList (l := name)]
    exact h _ (linkName?_of_libraryStem? hfile hstem hfilled rfl)
  · refine not_isLibraryOf_of_bare hfile hprefix hc ?_
    rw [← String.toList_ofList (l := stem)]
    refine h _ (linkName?_of_libraryStem? hfile hstem hne ?_)
    rw [if_neg]
    rwa [List.isPrefixOf_iff_prefix]

/-- A stem without the mark is found before every ending. -/
theorem libraryStem?_of_isLibraryEnding {stem ending : List Char}
    (h : ¬ Text.sharedMark <:+: stem) (hending : IsLibraryEnding ending) :
    libraryStem? (stem ++ ending) = some stem := by
  refine libraryStem?_eq_some_iff.2 ⟨h, ?_⟩
  rcases hending with hending | ⟨version, rfl⟩
  · rw [List.mem_cons] at hending
    rcases hending with rfl | hending
    · exact Or.inl ⟨[], rfl⟩
    · exact Or.inr ⟨ending, hending, rfl⟩
  · exact Or.inl ⟨'.' :: version, rfl⟩

/-- **Where link names are right.** A file that has a link name is a library of that name, unless
something other than a version stands behind the first mark of a shared object. Conversely, a
library file is linked by its name, spelled with `lib` or without, if the name has no such mark
itself. -/
theorem linksFaithfully_iff (file : Path) :
    (LinksFaithfully file ↔ ¬ file.IsCutShort) ∧
    ∀ name ending, name ≠ [] → ¬ Text.sharedMark <:+: name → IsLibraryEnding ending →
      (file.fileName? = some ("lib".toList ++ name ++ ending) ∨
        file.fileName? = some (name ++ ending) ∧ ¬ "lib".toList <+: name) →
      linkName? file = some (.ofList name) := by
  refine ⟨linksFaithfully_iff_not_isCutShort, fun name ending hfilled hunmarked hending hfile => ?_⟩
  rw [linkName?_eq_some_iff, String.toList_ofList]
  rcases hfile with hfile | ⟨hfile, hbare⟩
  · refine ⟨hfilled, _, hfile, Or.inl ?_⟩
    exact libraryStem?_of_isLibraryEnding (Text.not_marked_lib_append hunmarked) hending
  · exact ⟨hfilled, _, hfile, Or.inr ⟨libraryStem?_of_isLibraryEnding hunmarked hending, hbare⟩⟩

/-- A socket and an archive that only begin like libraries are linked as one. -/
theorem not_linksFaithfully :
    linkName? "/x/libfoo.sock" = some "foo" ∧ ¬ LinksFaithfully "/x/libfoo.sock" ∧
    linkName? "/x/libfoo.solver.a" = some "foo" ∧ ¬ LinksFaithfully "/x/libfoo.solver.a" := by
  have hsocket : Path.IsCutShort "/x/libfoo.sock" :=
    ⟨"libfoo".toList, 'c', ['k'], by rfl, by decide +kernel, by decide, by decide, by decide⟩
  have harchive : Path.IsCutShort "/x/libfoo.solver.a" :=
    ⟨"libfoo".toList, 'l', "ver.a".toList, by rfl, by decide +kernel, by decide, by decide,
      by decide⟩
  exact ⟨by decide +kernel, fun h => linksFaithfully_iff_not_isCutShort.1 h hsocket,
    by decide +kernel, fun h => linksFaithfully_iff_not_isCutShort.1 h harchive⟩

/-! ### The link names of files that were found -/

/-- The file names of a library without a version that do not say that it is static. -/
def plainFileNames (name : List Char) : List (List Char) :=
  ["lib".toList ++ name ++ ".so".toList, "lib".toList ++ name ++ ".dylib".toList,
    name ++ ".lib".toList, "lib".toList ++ name ++ ".a".toList]

/-- The file name has one of the forms that do not say that it is static. -/
def IsPlainFileName (name file : List Char) : Prop :=
  file ∈ plainFileNames name ∨ "lib".toList ++ name ++ ".so.".toList <+: file

/-- There is only one other form. -/
theorem isLibraryFileName_iff {name file : List Char} :
    IsLibraryFileName name file ↔ IsPlainFileName name file ∨ file = staticFileName name := by
  have hnames : libraryFileNames name = plainFileNames name ++ [staticFileName name] := rfl
  rw [IsLibraryFileName, IsPlainFileName, hnames, List.mem_append, List.mem_singleton]
  exact or_right_comm

/-- **No two meanings.** A name that says that it is static has none of the other forms. -/
theorem not_isPlainFileName_staticFileName (name : List Char) :
    ¬ IsPlainFileName name (staticFileName name) := by
  rintro (hfixed | ⟨version, hversion⟩)
  · simp only [plainFileNames, List.mem_cons, List.not_mem_nil, or_false] at hfixed
    rcases hfixed with heq | heq | heq | heq
    · exact IsLinkName.append_ne_staticFileName (by decide) name heq.symm
    · exact IsLinkName.append_ne_staticFileName (by decide) name heq.symm
    · exact IsLinkName.append_lib_ne_staticFileName name heq.symm
    · exact IsLinkName.append_ne_staticFileName (by decide) name heq.symm
  · rw [List.append_assoc] at hversion
    exact IsLinkName.append_ne_staticFileName (fun heq => by cases heq) name hversion

/-- **The name comes back.** A library that is found has the name it was found by for its link name,
or that name with a mark that it is static. It has the mark exactly if its file name says that it is
static and has no other form, and it has none exactly if its file name has another form. -/
theorem linkName?_of_findLibrary_iff {w : World} {name : String} {directories : List Path}
    {p : Path} (hname : IsLinkName name.toList) (h : w.findLibrary name directories = .ok p) :
    ∃ file, p.fileName? = some file ∧
      (linkName? p = some name ∨ linkName? p = some (name ++ "_static")) ∧
      (linkName? p = some (name ++ "_static") ↔
        file = staticFileName name.toList ∧ ¬ IsPlainFileName name.toList file) ∧
      (linkName? p = some name ↔ IsPlainFileName name.toList file) := by
  obtain ⟨file, hfile, hform⟩ := w.exists_fileName?_of_findLibrary hname.whole hname.literal h
  have hlink := linkName?_of_findLibrary hname h
  have hne : name ++ "_static" ≠ name := by
    intro heq
    have hlength := congrArg String.length heq
    simp at hlength
  refine ⟨file, hfile, ?_⟩
  by_cases hstatic : file = staticFileName name.toList
  · subst hstatic
    have hplain := not_isPlainFileName_staticFileName name.toList
    rw [hlink, linkedName, if_pos hfile]
    simp [hplain, hne]
  · have hplain := (isLibraryFileName_iff.1 hform).resolve_right hstatic
    have hother : p.fileName? ≠ some (staticFileName name.toList) := by simpa [hfile] using hstatic
    rw [hlink, linkedName, if_neg hother]
    simp [hstatic, hplain, hne.symm]

namespace Sample

/-- A directory with an archive that says that it is static. -/
def staticTree : Tree where
  children :=
    [(⟨"a".toList, by rfl⟩, .directory [
      (⟨"libfoo_static.a".toList, by rfl⟩, .file ⟨[], false, none⟩)])]
  proper := by rfl

/-- The directory with nothing else around. -/
def staticWorld : World := .ofTree staticTree []

/-- The archive is linked by the name that says so as well. -/
theorem linkName?_of_findLibrary_static :
    staticWorld.findLibrary "foo" ["/a"] = .ok "/a/libfoo_static.a" ∧
    IsLinkName "foo".toList ∧ linkName? "/a/libfoo_static.a" = some "foo_static" := by
  have hfound : staticWorld.findLibrary "foo" ["/a"] = .ok "/a/libfoo_static.a" := by
    decide +kernel
  have hname : IsLinkName "foo".toList :=
    ⟨by decide, by decide, Glob.literal_of_all (by decide), by decide +kernel, by decide⟩
  obtain ⟨file, hfile, -, hstatic, -⟩ := linkName?_of_findLibrary_iff hname hfound
  have hshown : Path.fileName? "/a/libfoo_static.a" = some "libfoo_static.a".toList := by decide
  rw [hshown] at hfile
  cases hfile
  refine ⟨hfound, hname, hstatic.2 ⟨by decide, ?_⟩⟩
  exact not_isPlainFileName_staticFileName "foo".toList

end Sample

end ExtensionPlan
