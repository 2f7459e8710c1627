import ExtensionPlan.Proofs.Library.Seen
import ExtensionPlan.Proofs.Package.Failure

/-!
# ExtensionPlan.Proofs.Package.Seen

**Relative hints and the same hints seen from the root.** The package file that is found is the same
one, and so is what lies below the directory in which the package is installed. Only that directory
itself is searched upwards, and from a relative package file the way up ends at the working
directory. So the two searches find the same package, or both fail, unless the package is installed
above the working directory: then the relative hints find nothing
(`PackageSpec.findsAlike_iff`).
-/

namespace ExtensionPlan

/-- The hints as they are seen from the root, `cwd` being the working directory. -/
def SearchHints.absoluteFrom (hints : SearchHints) (cwd : Path) : SearchHints :=
  (hints.dirs.map (·.absoluteFrom cwd)).foldl register empty

/-- A directory that is not registered, since one of its meaning is there, is not missed by a search
that goes through the directories, if it finds nothing in the one when it finds nothing in the
other. -/
theorem SearchHints.findSome?_foldl_register {β : Type} {f : Path → Option β} {hints : SearchHints}
    {further : List Path} (h : ∀ a ∈ hints.dirs ++ further, ∀ b ∈ hints.dirs ++ further,
      a.same b = true → f a = none → f b = none) :
    (further.foldl register hints).dirs.findSome? f = (hints.dirs ++ further).findSome? f := by
  induction further generalizing hints with
  | nil =>
      rw [List.append_nil]
      rfl
  | cons dir further ih =>
      have hmore : ∀ a ∈ (hints.register dir).dirs ++ further,
          a ∈ hints.dirs ++ dir :: further := by
        intro a ha
        rw [dirs_register] at ha
        rcases List.mem_append.1 ha with ha | ha
        · rcases Path.mem_register ha with ha | rfl
          · exact List.mem_append_left _ ha
          · exact List.mem_append_right _ List.mem_cons_self
        · exact List.mem_append_right _ (List.mem_cons_of_mem dir ha)
      rw [List.foldl_cons, ih fun a ha b hb => h a (hmore a ha) b (hmore b hb), dirs_register]
      cases hin : dir.isIn hints.dirs with
      | false => rw [Path.register_of_not_isIn hin, List.append_assoc, List.singleton_append]
      | true =>
          rw [Path.register_of_isIn hin, List.findSome?_append, List.findSome?_append]
          cases hfound : hints.dirs.findSome? f with
          | some found => rfl
          | none =>
              -- the one of the same meaning was gone through already
              obtain ⟨other, hother, hsame⟩ := Path.isIn_iff.1 hin
              have hnone := h other (List.mem_append_left _ hother) dir
                (List.mem_append_right _ List.mem_cons_self) hsame
                (List.findSome?_eq_none_iff.1 hfound other hother)
              rw [List.findSome?_cons, hnone]

/-- The second package is the first one as it is seen from the root. -/
structure Package.IsSeenAs (cwd : Path) (package other : Package) : Prop where
  name : other.name = package.name
  packageFile : Path.IsSeenAs cwd package.packageFile other.packageFile
  installDir : Path.IsSeenAs cwd package.installDir other.installDir
  includeDirs : List.Forall₂ (Path.IsSeenAs cwd) package.includeDirs other.includeDirs
  libDirs : List.Forall₂ (Path.IsSeenAs cwd) package.libDirs other.libDirs
  libraries : List.Forall₂ (Path.IsSeenAs cwd) package.libraries other.libraries
  flags : other.flags = package.flags

namespace PackageSpec

variable {spec : PackageSpec} {hints : SearchHints} {w : World} {cwd p q dir above : Path}

/-! ### Specifications and hints that are spelled plainly -/

/-- What is looked up behind a directory above the package file. -/
def places (spec : PackageSpec) : List Path :=
  (spec.primaryInclude :: (spec.includeDirs ++ ["lib", "lib64"])).map Path.ofString ++
    ["lib", "lib64"].flatMap fun dir : String =>
      (spec.requiredLibraries ++ spec.optionalLibraries).flatMap fun name =>
        (libraryFileNames name.toList).map fun file => ⟨dir.toList ++ '/' :: file⟩

/-- Behind the path there is room for all that is looked up. -/
def IsRoomy (spec : PackageSpec) (p : Path) : Prop :=
  ∀ place ∈ spec.places,
    Text.byteCount p.chars + Text.byteCount place.chars < World.pathLimit

instance (spec : PackageSpec) (p : Path) : Decidable (spec.IsRoomy p) :=
  inferInstanceAs (Decidable (∀ place ∈ spec.places, _))

/-- Nothing in the spelling of a package and of the places where it is searched hides it: no path
that is looked up is too long, no hint or include directory is spelled by nothing, no empty piece
comes right after the dots of a path, and the names of libraries are no patterns. -/
structure IsPlain (spec : PackageSpec) (hints : SearchHints) (cwd : Path) : Prop where
  filled : ∀ hint ∈ hints.dirs, hint.chars ≠ []
  roomy : ∀ hint ∈ hints.dirs, ∀ p ∈ spec.candidates hint, spec.IsRoomy p
  roomyFromRoot : ∀ hint ∈ hints.dirs, ∀ p ∈ spec.candidates (hint.absoluteFrom cwd),
    spec.IsRoomy p
  tidy : ∀ hint ∈ hints.dirs, ∀ p ∈ spec.candidates hint, p.isAbsolute = true ∨ p.IsTidy
  includes : "" ∉ spec.includeDirs
  libraries : ∀ name ∈ spec.requiredLibraries ++ spec.optionalLibraries,
    '/' ∉ name.toList ∧ ∀ c ∈ name.toList, Glob.isMeta c = false

/-- With both hints the same package is found, or with neither of them any. -/
def FindsAlike (spec : PackageSpec) (hints others : SearchHints) (cwd : Path) (w : World) : Prop :=
  Option.Rel (Package.IsSeenAs cwd) (spec.find hints w).toOption (spec.find others w).toOption

/-- The package file is found by a relative path, and the package that it belongs to is installed
above the working directory. -/
def FallsShort (spec : PackageSpec) (hints : SearchHints) (cwd : Path) (w : World) : Prop :=
  ∃ p package, spec.findPackageFile hints w = some p ∧ p.isAbsolute = false ∧
    spec.find (hints.absoluteFrom cwd) w = .ok package ∧ package.installDir.IsAbove cwd

/-! ### Candidates -/

/-- The directories in which the package file may be. -/
def homes (spec : PackageSpec) (hint : Path) : List Path :=
  hint :: [spec.name, spec.name.asciiLower].flatMap fun name : String =>
    [hint.join name, (hint.join "share/cmake").join name, (hint.join "lib/cmake").join name]

theorem candidates_eq (spec : PackageSpec) (hint : Path) :
    spec.candidates hint = (spec.homes hint).map fun home => home.join spec.packageFile := rfl

theorem filled_of_mem_homes {hint home : Path} (filled : hint.chars ≠ [])
    (h : home ∈ spec.homes hint) : home.chars ≠ [] := by
  have hbehind : ∀ x : Path, (hint.join x).chars ≠ [] := fun x => Path.filled_join (Or.inl filled)
  simp only [homes, List.flatMap_cons, List.flatMap_nil, List.mem_cons, List.mem_append,
    List.not_mem_nil, or_false] at h
  rcases h with rfl | (rfl | rfl | rfl) | rfl | rfl | rfl
  · exact filled
  · exact hbehind _
  · exact Path.filled_join (Or.inl (hbehind _))
  · exact Path.filled_join (Or.inl (hbehind _))
  · exact hbehind _
  · exact Path.filled_join (Or.inl (hbehind _))
  · exact Path.filled_join (Or.inl (hbehind _))

theorem forall₂_homes (hcwd : cwd.isAbsolute = true) {hint other : Path}
    (h : Path.IsSeenAs cwd hint other) :
    List.Forall₂ (Path.IsSeenAs cwd) (spec.homes hint) (spec.homes other) := by
  have hjoin := fun x : Path => h.join hcwd x
  exact .cons h (.cons (hjoin _) (.cons ((hjoin _).join hcwd _) (.cons ((hjoin _).join hcwd _)
    (.cons (hjoin _) (.cons ((hjoin _).join hcwd _) (.cons ((hjoin _).join hcwd _) .nil))))))

theorem IsRoomy.short (h : spec.IsRoomy p) : Text.byteCount p.chars ≤ World.pathLimit := by
  have hfirst := h spec.primaryInclude (List.mem_append_left _ List.mem_cons_self)
  omega

/-- What is looked up behind a directory above is not too long. -/
theorem IsRoomy.join (h : spec.IsRoomy p) (hdir : dir ∈ p.parents) {place : Path}
    (hplace : place ∈ spec.places) :
    Text.byteCount (dir.join place).chars ≤ World.pathLimit := by
  have hroom := h place hplace
  have hless := Text.byteCount_le_of_sublist (Path.prefix_of_mem_parents hdir).sublist
  have hjoin := Path.byteCount_join_le dir place
  omega

theorem isName_of_mem_lib {place : String} (h : place ∈ ["lib", "lib64"]) :
    IsName place.toList := by
  rcases List.mem_cons.1 h with rfl | h
  · exact .of_length (by decide) (by decide)
  · rw [List.mem_singleton.1 h]
    exact .of_length (by decide) (by decide)

/-- The directories in which libraries may be are looked up. -/
theorem mem_places_of_mem_lib {place : String} (h : place ∈ ["lib", "lib64"]) :
    Path.ofString place ∈ spec.places ∧ place ≠ "" := by
  refine ⟨List.mem_append_left _ (List.mem_map_of_mem (List.mem_cons_of_mem _
    (List.mem_append_right spec.includeDirs h))), fun hempty => ?_⟩
  exact (isName_of_mem_lib h).filled (String.toList_eq_nil_iff.2 hempty)

theorem IsPlain.mem_places (h : spec.IsPlain hints cwd) {place : String}
    (hplace : place ∈ spec.includeDirs) : Path.ofString place ∈ spec.places ∧ place ≠ "" := by
  refine ⟨List.mem_append_left _ (List.mem_map_of_mem (List.mem_cons_of_mem _
    (List.mem_append_left _ hplace))), fun hempty => ?_⟩
  exact h.includes (hempty ▸ hplace)

/-- Nor is the path of a library file in one of them too long. -/
theorem IsRoomy.join_join (h : spec.IsRoomy p) (hdir : dir ∈ p.parents) {place name : String}
    (hplace : place ∈ ["lib", "lib64"])
    (hname : name ∈ spec.requiredLibraries ++ spec.optionalLibraries) {file : List Char}
    (hfile : file ∈ libraryFileNames name.toList) :
    Text.byteCount ((dir.join place).join ⟨file⟩).chars ≤ World.pathLimit := by
  have hmem : Path.mk (place.toList ++ '/' :: file) ∈ spec.places :=
    List.mem_append_right _ (List.mem_flatMap.2 ⟨place, hplace,
      List.mem_flatMap.2 ⟨name, hname, List.mem_map_of_mem hfile⟩⟩)
  have hroom := h _ hmem
  have hless := Text.byteCount_le_of_sublist (Path.prefix_of_mem_parents hdir).sublist
  have houter := Path.byteCount_join_le dir place
  have hinner := Path.byteCount_join_le (dir.join place) ⟨file⟩
  have hslash : Text.byteCount ('/' :: file) = 1 + Text.byteCount file := rfl
  rw [Text.byteCount_append, hslash] at hroom
  have hchars : (Path.ofString place).chars = place.toList := rfl
  rw [hchars] at houter
  dsimp only at hinner
  omega

/-- A search gets to the directories of libraries. From a relative package file it has to get
through the dots of its path. -/
theorem isSearchable_lib (htidy : p.isAbsolute = true ∨ p.IsTidy) (hdir : dir ∈ p.parents)
    {place : String} (hplace : place ∈ ["lib", "lib64"])
    (hdirectory : w.isDirectory (dir.join place) = true) : w.IsSearchable (dir.join place) := by
  have hlib : IsName place.toList := isName_of_mem_lib hplace
  rcases htidy with hp | htidy
  · obtain ⟨i, hi⟩ := List.getElem?_of_mem hdir
    have hdirAbsolute := (Path.steps_of_getElem?_parents hi).1.trans hp
    exact World.isSearchable_of_isAbsolute (Path.isAbsolute_join hdirAbsolute _) hdirectory
  · refine World.isSearchable_of_isTidy (htidy.join_of_mem_parents hdir hlib) ?_ hdirectory
    have hrelative : (Path.ofString place).isAbsolute = false := hlib.not_isAbsolute
    have hsteps : (Path.ofString place).steps = [.name place.toList] := Path.steps_of_isName hlib
    rw [Path.steps_join, hrelative, if_neg Bool.false_ne_true, hsteps]
    exact List.append_ne_nil_of_right_ne_nil _ (List.cons_ne_nil _ _)

/-- The flags are the same if the package files lead to one file. -/
theorem toOption_readFlags_eq (hagree : w.Agree cwd p q) (hfile : w.isFile p = true) :
    (spec.readFlags p w).toOption = (spec.readFlags q w).toOption := by
  obtain ⟨file, hfound⟩ := World.isFile_iff.1 hfile
  unfold readFlags
  rw [hagree.readText_eq hfound]
  cases spec.flagsVariable with
  | none => rfl
  | some name => cases w.readText q <;> rfl

section Alike

variable (hcwd : w.currentDirectory = .ok cwd)
  (hshort : ∀ name ∈ w.here.location, Text.byteCount name.chars ≤ Tree.nameLimit)

include hcwd hshort

/-- The candidates below a hint agree with those below the hint that it is seen as. -/
theorem forall₂_candidates {hint other : Path} (h : Path.IsSeenAs cwd hint other)
    (filled : hint.chars ≠ []) (hroomy : ∀ p ∈ spec.candidates hint, spec.IsRoomy p)
    (hroomy' : ∀ q ∈ spec.candidates other, spec.IsRoomy q) :
    List.Forall₂ (w.Agree cwd) (spec.candidates hint) (spec.candidates other) := by
  rw [candidates_eq] at hroomy hroomy' ⊢
  rw [candidates_eq, List.forall₂_map_left_iff, List.forall₂_map_right_iff]
  refine forall₂_imp_of_mem (forall₂_homes (World.isAbsolute_of_currentDirectory hcwd) h) ?_
  intro home hhome home' hhome' hseen
  exact World.agree_join hcwd hseen hshort
    (Path.filled_join (Or.inl (filled_of_mem_homes filled hhome)))
    (hroomy _ (List.mem_map_of_mem hhome)).short (hroomy' _ (List.mem_map_of_mem hhome')).short

/-- Of hints that mean the same one may be left out. -/
theorem findPackageFile_absoluteFrom (hplain : spec.IsPlain hints cwd) :
    spec.findPackageFile (hints.absoluteFrom cwd) w =
      ((hints.dirs.map (·.absoluteFrom cwd)).flatMap spec.candidates).find? w.isFile := by
  have habsolute := World.isAbsolute_of_currentDirectory hcwd
  rw [findPackageFile, List.find?_flatMap, List.find?_flatMap, SearchHints.absoluteFrom]
  refine SearchHints.findSome?_foldl_register ?_
  intro a ha b hb hsame hnone
  obtain ⟨hint, hhint, rfl⟩ := List.mem_map.1 ha
  obtain ⟨other, hother, rfl⟩ := List.mem_map.1 hb
  have hfirst := Path.isAbsolute_absoluteFrom hint habsolute
  have hseen : Path.IsSeenAs cwd (hint.absoluteFrom cwd) (other.absoluteFrom cwd) := by
    rw [Path.isSeenAs_iff habsolute, hfirst, if_pos rfl, List.nil_append]
    exact ⟨Path.isAbsolute_absoluteFrom other habsolute,
      (Path.steps_eq_of_components (Path.same_iff.1 hsame)).symm⟩
  have hagree := forall₂_candidates hcwd hshort hseen (Path.filled_of_isAbsolute hfirst)
    (hplain.roomyFromRoot hint hhint) (hplain.roomyFromRoot other hother)
  have hrel := rel_find? hagree fun p q h => h.isFile_eq
  rw [hnone] at hrel
  cases hfound : (spec.candidates (other.absoluteFrom cwd)).find? w.isFile with
  | none => rfl
  | some p =>
      rw [hfound] at hrel
      cases hrel

/-- Package files that agree, with room behind both of them. -/
structure FilesAlike (spec : PackageSpec) (w : World) (cwd p q : Path) : Prop where
  agree : w.Agree cwd p q
  roomy : spec.IsRoomy p
  roomy' : spec.IsRoomy q
  tidy : p.isAbsolute = true ∨ p.IsTidy

/-- **The package file.** With the hints as they are seen from the root the same package file is
found. -/
theorem rel_findPackageFile (hplain : spec.IsPlain hints cwd) :
    Option.Rel (spec.FilesAlike w cwd) (spec.findPackageFile hints w)
      (spec.findPackageFile (hints.absoluteFrom cwd) w) := by
  rw [findPackageFile_absoluteFrom hcwd hshort hplain, findPackageFile]
  refine rel_find? ?_ fun p q h => h.agree.isFile_eq
  have hhints : List.Forall₂ (fun hint other => hint ∈ hints.dirs ∧ other = hint.absoluteFrom cwd)
      hints.dirs (hints.dirs.map (·.absoluteFrom cwd)) := by
    rw [List.forall₂_map_right_iff, List.forall₂_same]
    exact fun hint hhint => ⟨hhint, rfl⟩
  refine List.rel_flatMap hhints ?_
  intro hint other hhint
  obtain ⟨hhint, rfl⟩ := hhint
  have hroomy := hplain.roomy hint hhint
  have hroomy' := hplain.roomyFromRoot hint hhint
  refine forall₂_imp_of_mem (forall₂_candidates hcwd hshort (Path.isSeenAs_absoluteFrom hint cwd)
    (hplain.filled hint hhint) hroomy hroomy') ?_
  exact fun p hp q hq hagree => ⟨hagree, hroomy p hp, hroomy' q hq, hplain.tidy hint hhint p hp⟩

/-! ### Upwards from the package file -/

/-- What is looked up behind a directory above the package file agrees with what is looked up behind
the directory that it is seen as. -/
theorem agree_place (hfiles : spec.FilesAlike w cwd p q) (hseen : Path.IsSeenAs cwd dir above)
    (hdir : dir ∈ p.parents) (habove : above ∈ q.parents) {place : Path}
    (hplace : place ∈ spec.places) (filled : place.chars ≠ []) :
    w.Agree cwd (dir.join place) (above.join place) :=
  World.agree_join hcwd hseen hshort (Path.filled_join (Or.inr filled))
    (hfiles.roomy.join hdir hplace) (hfiles.roomy'.join habove hplace)

section Upwards

variable (hfiles : spec.FilesAlike w cwd p q) (hincludes : "" ∉ spec.includeDirs)

include hfiles hincludes

theorem isDirectory_primaryInclude_eq (hdir : dir ∈ p.parents) (habove : above ∈ q.parents)
    (hseen : Path.IsSeenAs cwd dir above) :
    w.isDirectory (dir.join spec.primaryInclude) =
      w.isDirectory (above.join spec.primaryInclude) := by
  have hplace : Path.ofString spec.primaryInclude ∈ spec.places :=
    List.mem_append_left _ List.mem_cons_self
  refine (agree_place hcwd hshort hfiles hseen hdir habove hplace ?_).isDirectory_eq
  intro hempty
  have hnone : spec.primaryInclude = "" := String.toList_eq_nil_iff.1 hempty
  unfold primaryInclude at hnone
  cases hfirst : spec.includeDirs.head? with
  | none =>
      rw [hfirst] at hnone
      exact absurd hnone (by decide)
  | some first =>
      rw [hfirst, Option.getD_some] at hnone
      exact hincludes (hnone ▸ List.mem_of_head? hfirst)

/-- Where the package is installed, as long as this is not above the working directory. -/
theorem exists_findInstallDir (hfile : w.isFile p = true)
    (hfound : spec.findInstallDir p w = some dir) :
    ∃ above, spec.findInstallDir q w = some above ∧ Path.IsSeenAs cwd dir above :=
  Path.exists_find?_parents_of_isSeenAs (World.isAbsolute_of_currentDirectory hcwd)
    hfiles.agree.seen
    (fun _ hdir _ habove => isDirectory_primaryInclude_eq hcwd hshort hfiles hincludes hdir habove)
    (World.steps_ne_nil_of_isFile hfile) hfound

theorem isAbove_of_findInstallDir (hnone : spec.findInstallDir p w = none)
    (hfound : spec.findInstallDir q w = some dir) : p.isAbsolute = false ∧ dir.IsAbove cwd :=
  Path.isAbove_of_find?_parents (World.isAbsolute_of_currentDirectory hcwd) hfiles.agree.seen
    (fun _ hdir _ habove => isDirectory_primaryInclude_eq hcwd hshort hfiles hincludes hdir habove)
    hnone hfound

end Upwards

/-! ### Below the directory of the installation -/

section Below

variable (hfiles : spec.FilesAlike w cwd p q) (hseen : Path.IsSeenAs cwd dir above)
  (hdir : dir ∈ p.parents) (habove : above ∈ q.parents)

include hfiles hseen hdir habove

/-- The same directories exist. -/
theorem forall₂_existing {places : List String}
    (hplaces : ∀ place ∈ places, Path.ofString place ∈ spec.places ∧ place ≠ "") :
    List.Forall₂
      (fun found other => ∃ place ∈ places, found = dir.join place ∧ other = above.join place ∧
        w.Agree cwd found other)
      (existing w dir places) (existing w above places) := by
  refine List.rel_filter ?_ ?_
  · intro found other hfound
    obtain ⟨place, -, -, -, hagree⟩ := hfound
    show w.isDirectory found = true ↔ w.isDirectory other = true
    rw [hagree.isDirectory_eq]
  · rw [List.forall₂_map_left_iff, List.forall₂_map_right_iff, List.forall₂_same]
    intro place hplace
    obtain ⟨hmem, hfilled⟩ := hplaces place hplace
    refine ⟨place, hplace, rfl, rfl, agree_place hcwd hshort hfiles hseen hdir habove hmem ?_⟩
    exact fun hempty => hfilled (String.toList_eq_nil_iff.1 hempty)

theorem forall₂_existing_isSeenAs {places : List String}
    (hplaces : ∀ place ∈ places, Path.ofString place ∈ spec.places ∧ place ≠ "") :
    List.Forall₂ (Path.IsSeenAs cwd) (existing w dir places) (existing w above places) := by
  refine (forall₂_existing hcwd hshort hfiles hseen hdir habove hplaces).imp ?_
  intro found other halike
  obtain ⟨place, -, -, -, hagree⟩ := halike
  exact hagree.seen

/-- In the directories of libraries the same is found. -/
theorem forall₂_libDirs {name : String}
    (hname : name ∈ spec.requiredLibraries ++ spec.optionalLibraries) :
    List.Forall₂ (w.SearchedAlike cwd name.toList) (existing w dir ["lib", "lib64"])
      (existing w above ["lib", "lib64"]) := by
  have habsolute := World.isAbsolute_of_currentDirectory hcwd
  refine forall₂_imp_of_mem (forall₂_existing hcwd hshort hfiles hseen hdir habove
    fun place hplace => mem_places_of_mem_lib hplace) ?_
  intro found hfound other hother halike
  obtain ⟨place, hplace, rfl, rfl, hagree⟩ := halike
  have hdirectory := isDirectory_of_mem_existing hfound
  have hfilled : (dir.join place).chars ≠ [] :=
    Path.filled_join (Or.inr (isName_of_mem_lib hplace).filled)
  have haboveAbsolute := ((Path.isSeenAs_iff habsolute).1 hagree.seen).1
  exact
    { agree := hagree
      isDirectory := hdirectory
      searchable := isSearchable_lib hfiles.tidy hdir hplace hdirectory
      searchable' := World.isSearchable_of_isAbsolute haboveAbsolute
        (isDirectory_of_mem_existing hother)
      files := fun file hfile => World.agree_join hcwd hagree.seen hshort
        (Path.filled_join (Or.inl hfilled)) (hfiles.roomy.join_join hdir hplace hname hfile)
        (hfiles.roomy'.join_join habove hplace hname hfile) }

section Libraries

variable (hnames : ∀ name ∈ spec.requiredLibraries ++ spec.optionalLibraries,
  '/' ∉ name.toList ∧ ∀ c ∈ name.toList, Glob.isMeta c = false)

include hnames

theorem rel_findLibrary {name : String}
    (hname : name ∈ spec.requiredLibraries ++ spec.optionalLibraries) :
    Option.Rel (Path.IsSeenAs cwd)
      (w.findLibrary name (existing w dir ["lib", "lib64"])).toOption
      (w.findLibrary name (existing w above ["lib", "lib64"])).toOption := by
  exact World.rel_findLibrary (World.isAbsolute_of_currentDirectory hcwd)
    (forall₂_libDirs hcwd hshort hfiles hseen hdir habove hname) (hnames name hname).1

theorem rel_findRequired : Option.Rel (List.Forall₂ (Path.IsSeenAs cwd))
    (spec.findRequired w dir).toOption (spec.findRequired w above).toOption := by
  have hdrop : ∀ (x : Except ProbeError Path) (f : ProbeError → PlanError),
      (x.mapError f).toOption = x.toOption := by
    intro x f
    cases x <;> rfl
  refine rel_mapM fun name hname => ?_
  rw [hdrop, hdrop]
  exact rel_findLibrary hcwd hshort hfiles hseen hdir habove hnames (List.mem_append_left _ hname)

theorem forall₂_foundFiles : List.Forall₂ (Path.IsSeenAs cwd)
    (w.foundFiles (existing w dir ["lib", "lib64"]) spec.optionalLibraries)
    (w.foundFiles (existing w above ["lib", "lib64"]) spec.optionalLibraries) := by
  have hself : List.Forall₂ (fun name other => name = other ∧ name ∈ spec.optionalLibraries)
      spec.optionalLibraries spec.optionalLibraries :=
    List.forall₂_same.2 fun name hname => ⟨rfl, hname⟩
  refine List.rel_filterMap ?_ hself
  intro name other hname
  obtain ⟨rfl, hname⟩ := hname
  exact rel_findLibrary hcwd hshort hfiles hseen hdir habove hnames (List.mem_append_right _ hname)

end Libraries

/-- **The package.** Installed in directories of which the second is the first one as it is seen
from the root, the same package is found. -/
theorem rel_packageOf (hfile : w.isFile p = true) (hplain : spec.IsPlain hints cwd) :
    Option.Rel (Package.IsSeenAs cwd)
      (spec.findRequired w dir >>= fun required =>
        (spec.readFlags p w).map fun flags => spec.packageOf w p dir required flags).toOption
      (spec.findRequired w above >>= fun required =>
        (spec.readFlags q w).map fun flags =>
          spec.packageOf w q above required flags).toOption := by
  rw [toOption_bind, toOption_bind]
  refine rel_bind (rel_findRequired hcwd hshort hfiles hseen hdir habove hplain.libraries) ?_
  intro required others hrequired
  rw [toOption_map, toOption_map, toOption_readFlags_eq hfiles.agree hfile]
  cases (spec.readFlags q w).toOption with
  | none => exact .none
  | some flags =>
      exact .some
        { name := rfl
          packageFile := hfiles.agree.seen
          installDir := hseen
          includeDirs := forall₂_existing_isSeenAs hcwd hshort hfiles hseen hdir habove
            fun place hplace => hplain.mem_places hplace
          libDirs := forall₂_existing_isSeenAs hcwd hshort hfiles hseen hdir habove
            fun place hplace => mem_places_of_mem_lib hplace
          libraries := List.rel_append hrequired
            (forall₂_foundFiles hcwd hshort hfiles hseen hdir habove hplain.libraries)
          flags := rfl }

end Below

/-! ### The whole search -/

section Whole

variable (hplain : spec.IsPlain hints cwd)

include hplain

/-- If the package falls short, then its directory is not among those above the package file. -/
theorem findInstallDir_of_fallsShort (hp : spec.findPackageFile hints w = some p)
    (hfalls : spec.FallsShort hints cwd w) : spec.findInstallDir p w = none := by
  obtain ⟨file, package, hfile, hrelative, hfind, habove⟩ := hfalls
  obtain rfl := Option.some.inj (hp.symm.trans hfile)
  obtain ⟨q, hq, other, hother, required, -, flags, -, rfl⟩ := find_eq_ok_iff.1 hfind
  have hrel := rel_findPackageFile hcwd hshort hplain
  rw [hp, hq] at hrel
  obtain ⟨hfiles⟩ := hrel
  cases hdir : spec.findInstallDir p w with
  | none => rfl
  | some dir =>
      obtain ⟨above, hfound, hseen⟩ := exists_findInstallDir hcwd hshort hfiles hplain.includes
        (List.find?_some hp) hdir
      obtain rfl := Option.some.inj (hother.symm.trans hfound)
      -- a relative directory is seen at or below the working directory
      obtain ⟨i, hi⟩ := List.getElem?_of_mem (List.mem_of_find?_eq_some hdir)
      have hdirRelative := (Path.steps_of_getElem?_parents hi).1.trans hrelative
      have habsolute := World.isAbsolute_of_currentDirectory hcwd
      exact absurd habove (hseen.not_isAbove habsolute hdirRelative)

theorem findsAlike_of_not_fallsShort (hstays : ¬ spec.FallsShort hints cwd w) :
    spec.FindsAlike hints (hints.absoluteFrom cwd) cwd w := by
  have hrel := rel_findPackageFile hcwd hshort hplain
  unfold FindsAlike
  cases hp : spec.findPackageFile hints w with
  | none =>
      rw [hp] at hrel
      rw [find_of_no_file hp, find_of_no_file (eq_none_of_rel hrel)]
      exact .none
  | some p =>
      rw [hp] at hrel
      obtain ⟨q, hq, hfiles⟩ := exists_of_rel hrel
      have hfile : w.isFile p = true := List.find?_some hp
      cases hdir : spec.findInstallDir p w with
      | some dir =>
          obtain ⟨above, habove, hseen⟩ :=
            exists_findInstallDir hcwd hshort hfiles hplain.includes hfile hdir
          rw [find_of_dir hp hdir, find_of_dir hq habove]
          exact rel_packageOf hcwd hshort hfiles hseen (List.mem_of_find?_eq_some hdir)
            (List.mem_of_find?_eq_some habove) hfile hplain
      | none =>
          rw [find_of_no_dir hp hdir]
          cases hfind : spec.find (hints.absoluteFrom cwd) w with
          | error e => exact .none
          | ok package =>
              -- the directory was found from the root only, so it lies above the working directory
              obtain ⟨q', hq', above, habove, required, -, flags, -, rfl⟩ := find_eq_ok_iff.1 hfind
              obtain rfl := Option.some.inj (hq.symm.trans hq')
              obtain ⟨hrelative, hfar⟩ :=
                isAbove_of_findInstallDir hcwd hshort hfiles hplain.includes hdir habove
              exact absurd ⟨p, _, hp, hrelative, hfind, hfar⟩ hstays

end Whole

end Alike

/-- **Relative and absolute hints.** With relative hints the same package is found as with these
hints seen from the root, or with neither of them any, exactly if it is not the case that the
package file is found by a relative path and the package lies above the working directory. In that
case the relative hints fail: no directory above the package file has the headers. -/
theorem findsAlike_iff (hcwd : w.currentDirectory = .ok cwd)
    (hshort : ∀ name ∈ w.here.location, Text.byteCount name.chars ≤ Tree.nameLimit)
    (hplain : spec.IsPlain hints cwd) :
    (spec.FindsAlike hints (hints.absoluteFrom cwd) cwd w ↔ ¬ spec.FallsShort hints cwd w) ∧
      ∀ p, spec.findPackageFile hints w = some p → spec.FallsShort hints cwd w →
        spec.find hints w = .error (.missing spec.name (.noInclude p spec.primaryInclude)) := by
  have hfails : ∀ p, spec.findPackageFile hints w = some p → spec.FallsShort hints cwd w →
      spec.find hints w = .error (.missing spec.name (.noInclude p spec.primaryInclude)) :=
    fun p hp hfalls => find_of_no_dir hp
      (findInstallDir_of_fallsShort hcwd hshort hplain hp hfalls)
  refine ⟨⟨fun halike hfalls => ?_, fun hstays => ?_⟩, hfails⟩
  · obtain ⟨p, package, hp, -, hfind, -⟩ := id hfalls
    rw [FindsAlike, hfails p hp hfalls, hfind] at halike
    cases halike
  · exact findsAlike_of_not_fallsShort hcwd hshort hplain hstays

end PackageSpec

/-! ### A package around the working directory -/

namespace Sample

/-- A package with its package file two directories further in. -/
def deepTree : Tree where
  children :=
    [(fileName "m", .directory [
      (fileName "headers", .directory []),
      (fileName "lib", .directory [(fileName "libgear.so", .file ⟨[], false, none⟩)]),
      (fileName "k", .directory [
        (fileName "c", .directory [
          (fileName "GearConfig.cmake", .file ⟨[], false, none⟩)])])])]
  proper := by rfl

/-- The package, seen from a directory. -/
def deepWorld (here : Location) : World := .ofTree deepTree here

/-- Where the package is installed. -/
def outside : Location := [fileName "m"]

/-- The directory between that and the one of the package file. -/
def inside : Location := [fileName "k", fileName "m"]

/-- A single hint. -/
def oneHint (dir : String) : SearchHints := .register .empty dir

/-- The names of its libraries are no patterns. -/
theorem literal_gear : ∀ name ∈ gear.requiredLibraries ++ gear.optionalLibraries,
    '/' ∉ name.toList ∧ ∀ c ∈ name.toList, Glob.isMeta c = false := by
  have hall : ∀ name ∈ gear.requiredLibraries ++ gear.optionalLibraries,
      '/' ∉ name.toList ∧ (name.toList.all fun c => !Glob.isMeta c) = true := by
    decide
  exact fun name hname => ⟨(hall name hname).1, Glob.literal_of_all (hall name hname).2⟩

/-- From the inner directory the package is found from the root only. -/
theorem not_findsAlike : ¬ gear.FindsAlike (oneHint "c") ((oneHint "c").absoluteFrom "/m/k") "/m/k"
    (deepWorld inside) := by
  intro halike
  have hrelative : (gear.find (oneHint "c") (deepWorld inside)).toOption = none := by
    decide +kernel
  have hfound : (gear.find ((oneHint "c").absoluteFrom "/m/k")
      (deepWorld inside)).toOption.isSome = true := by
    decide +kernel
  rw [PackageSpec.FindsAlike, hrelative] at halike
  rw [eq_none_of_rel halike] at hfound
  cases hfound

/-- From the inner directory the hint falls short, and it fails for the headers. From the outer one
it does not. -/
theorem findsAlike_iff_deep :
    (gear.IsPlain (oneHint "c") "/m/k" ∧ gear.FallsShort (oneHint "c") "/m/k" (deepWorld inside) ∧
      gear.find (oneHint "c") (deepWorld inside) =
        .error (.missing "Gear" (.noInclude "c/GearConfig.cmake" "headers"))) ∧
    gear.IsPlain (oneHint "k/c") "/m" ∧
      gear.FindsAlike (oneHint "k/c") ((oneHint "k/c").absoluteFrom "/m") "/m"
        (deepWorld outside) := by
  have hplain : gear.IsPlain (oneHint "c") "/m/k" :=
    { filled := by decide
      roomy := by decide +kernel
      roomyFromRoot := by decide +kernel
      tidy := by decide +kernel
      includes := by decide
      libraries := literal_gear }
  have hplain' : gear.IsPlain (oneHint "k/c") "/m" :=
    { filled := by decide
      roomy := by decide +kernel
      roomyFromRoot := by decide +kernel
      tidy := by decide +kernel
      includes := by decide
      libraries := literal_gear }
  have hcwd : (deepWorld inside).currentDirectory = .ok "/m/k" := by rfl
  have hcwd' : (deepWorld outside).currentDirectory = .ok "/m" := by rfl
  have hinside := PackageSpec.findsAlike_iff hcwd (by decide +kernel) hplain
  have houtside := PackageSpec.findsAlike_iff hcwd' (by decide +kernel) hplain'
  have hfile : gear.findPackageFile (oneHint "c") (deepWorld inside) =
      some ("c/GearConfig.cmake" : Path) := by
    decide +kernel
  have hdir : (gear.find ((oneHint "c").absoluteFrom "/m/k") (deepWorld inside)).toOption.map
      Package.installDir = some ("/m" : Path) := by
    decide +kernel
  have hfalls : gear.FallsShort (oneHint "c") "/m/k" (deepWorld inside) := by
    obtain ⟨package, hfind, hinstalled⟩ := Option.map_eq_some_iff.1 hdir
    refine ⟨_, package, hfile, rfl, toOption_eq_some_iff.1 hfind, ?_⟩
    rw [hinstalled]
    decide
  refine ⟨⟨hplain, hfalls, hinside.2 _ hfile hfalls⟩, hplain', houtside.1.2 ?_⟩
  intro hfalls'
  obtain ⟨p, package, -, -, hfind, habove⟩ := hfalls'
  have hdir' : (gear.find ((oneHint "k/c").absoluteFrom "/m") (deepWorld outside)).toOption.map
      Package.installDir = some ("/m" : Path) := by
    decide +kernel
  rw [hfind] at hdir'
  have hinstalled : package.installDir = ("/m" : Path) := Option.some.inj hdir'
  rw [hinstalled] at habove
  exact absurd habove (by decide)

end Sample

end ExtensionPlan
