import ExtensionPlan.Proofs.Package.Located

/-!
# ExtensionPlan.Proofs.Package.Failure

**What is said when no package is found.** Each step of the search has a failure that names the
package and says what is missing of it; only the last one, reading the flags, passes on what the
system says. It comes last, so the whole package is there by then, and it reads a file that was
found to be a regular one, so nothing can be wrong with it but that its bytes spell no text
(`PackageSpec.exists_shortfall_or_isUnreadable`). A failure says what is missing exactly if it is
not that one (`PackageSpec.saysWhatIsMissing_iff`).
-/

namespace ExtensionPlan

/-- What is found to be a regular file can be read, unless its bytes spell no text. -/
theorem World.readText_eq_error_iff {w : World} {p : Path} (h : w.isFile p = true)
    {cause : SystemError} : w.readText p = .error cause ↔
      cause = .notText ∧ ∃ file, w.find p = .ok (.file file) ∧
        Text.Utf8.text? file.content = none := by
  obtain ⟨file, hfile⟩ := isFile_iff.1 h
  unfold readText
  simp only [hfile, Except.ok.injEq, Node.file.injEq, exists_eq_left']
  rw [ok_bind]
  cases htext : Text.Utf8.text? file.content with
  | some text => simp [htext]
  | none => simp [htext, eq_comm]

namespace PackageSpec

variable {spec : PackageSpec} {hints : SearchHints} {w : World} {p : Path}

/-! ### The file and the directory, from both sides -/

theorem findPackageFile_eq_some_iff :
    spec.findPackageFile hints w = some p ↔ spec.IsFirstFile hints w p := by
  refine ⟨isFirstFile_of_findPackageFile, fun h => ?_⟩
  obtain ⟨hfile, place, hplace, hleast⟩ := h
  obtain ⟨found, hfound⟩ := exists_findPackageFile hplace hfile
  obtain ⟨hregular, other, hother, hleast'⟩ := isFirstFile_of_findPackageFile hfound
  have hsame : place = other := toLex_inj.1
    (le_antisymm (hleast other found hother hregular) (hleast' place p hplace hfile))
  rw [hsame, hother] at hplace
  rw [hfound, Option.some.inj hplace]

theorem findInstallDir_eq_some_iff {dir : Path} : spec.findInstallDir p w = some dir ↔
    Path.IsNearestAbove (fun dir => w.isDirectory (dir.join spec.primaryInclude)) p dir :=
  Path.find?_parents_eq_some_iff

/-! ### The steps of the search -/

theorem find_of_no_file (h : spec.findPackageFile hints w = none) :
    spec.find hints w =
      .error (.missing spec.name (.noPackageFile spec.packageFile hints.dirs)) := by
  rw [find, h]
  rfl

theorem find_of_no_dir (h : spec.findPackageFile hints w = some p)
    (hdir : spec.findInstallDir p w = none) :
    spec.find hints w = .error (.missing spec.name (.noInclude p spec.primaryInclude)) := by
  simp only [find, h, hdir, ok_bind]
  rfl

/-- The files of the libraries that are required, in the place of the installation. -/
def findRequired (spec : PackageSpec) (w : World) (installDir : Path) :
    Except PlanError (List Path) :=
  spec.requiredLibraries.mapM fun name =>
    (w.findLibrary name (existing w installDir ["lib", "lib64"])).mapError fun e =>
      .missing spec.name (.noLibrary e)

/-- With the package file and the place there, the libraries decide, and then the flags. -/
theorem find_of_dir {dir : Path} (h : spec.findPackageFile hints w = some p)
    (hdir : spec.findInstallDir p w = some dir) :
    spec.find hints w = spec.findRequired w dir >>= fun required =>
      (spec.readFlags p w).map fun flags => spec.packageOf w p dir required flags := by
  simp only [find, h, hdir, ok_bind]
  refine congrArg (spec.findRequired w dir >>= ·) (funext fun required => ?_)
  cases spec.readFlags p w <;> rfl

theorem findRequired_eq_ok_iff {dir : Path} {required : List Path} :
    spec.findRequired w dir = .ok required ↔
      List.Forall₂
        (fun name file => w.findLibrary name (existing w dir ["lib", "lib64"]) = .ok file)
        spec.requiredLibraries required := by
  simp only [findRequired, mapM_eq_ok_iff, mapError_eq_ok_iff]

theorem findRequired_eq_error {dir : Path} {e : PlanError}
    (h : spec.findRequired w dir = .error e) : ∃ shortfall, e = .missing spec.name shortfall := by
  obtain ⟨name, -, hfailed⟩ := exists_of_mapM_eq_error h
  obtain ⟨cause, -, rfl⟩ := mapError_eq_error_iff.1 hfailed
  exact ⟨_, rfl⟩

/-- Reading the flags fails only with what the system says. -/
theorem readFlags_eq_error_iff {e : PlanError} : spec.readFlags p w = .error e ↔
    spec.flagsVariable ≠ none ∧ ∃ cause, w.readText p = .error cause ∧ e = .system p cause := by
  unfold readFlags
  cases spec.flagsVariable with
  | none => simp
  | some name =>
      rw [map_eq_error_iff, mapError_eq_error_iff]
      simp [eq_comm]

/-! ### Failures -/

/-- A failure to find the package names it and says what is missing of it. -/
def SaysWhatIsMissing (spec : PackageSpec) (hints : SearchHints) (w : World) : Prop :=
  ∀ e, spec.find hints w = .error e → ∃ shortfall, e = .missing spec.name shortfall

/-- Nothing of the package is missing, but flags are to be read from its file and that holds no
text. -/
structure IsUnreadable (spec : PackageSpec) (hints : SearchHints) (w : World) (packageFile : Path) :
    Prop where
  first : spec.IsFirstFile hints w packageFile
  installed : ∃ dir,
    Path.IsNearestAbove (fun dir => w.isDirectory (dir.join spec.primaryInclude)) packageFile dir ∧
      ∃ required, List.Forall₂
        (fun name file => w.findLibrary name (existing w dir ["lib", "lib64"]) = .ok file)
        spec.requiredLibraries required
  asked : spec.flagsVariable ≠ none
  notText : ∃ file, w.find packageFile = .ok (.file file) ∧
    Text.Utf8.text? file.content = none

theorem find_of_isUnreadable (h : spec.IsUnreadable hints w p) :
    spec.find hints w = .error (.system p .notText) := by
  obtain ⟨dir, hdir, required, hrequired⟩ := h.installed
  have hread := (World.readText_eq_error_iff h.first.1).2 ⟨rfl, h.notText⟩
  have hflags := readFlags_eq_error_iff.2 ⟨h.asked, _, hread, rfl⟩
  rw [find_of_dir (findPackageFile_eq_some_iff.2 h.first) (findInstallDir_eq_some_iff.2 hdir),
    findRequired_eq_ok_iff.2 hrequired, hflags]
  rfl

/-- Every other failure says what is missing. -/
theorem exists_shortfall_or_isUnreadable {e : PlanError} (h : spec.find hints w = .error e) :
    (∃ shortfall, e = .missing spec.name shortfall) ∨ ∃ p, spec.IsUnreadable hints w p := by
  cases hfile : spec.findPackageFile hints w with
  | none =>
      rw [find_of_no_file hfile] at h
      cases h
      exact Or.inl ⟨_, rfl⟩
  | some p =>
      cases hdir : spec.findInstallDir p w with
      | none =>
          rw [find_of_no_dir hfile hdir] at h
          cases h
          exact Or.inl ⟨_, rfl⟩
      | some dir =>
          rw [find_of_dir hfile hdir] at h
          rcases bind_eq_error_iff.1 h with h | ⟨required, hrequired, h⟩
          · exact Or.inl (findRequired_eq_error h)
          · obtain ⟨hasked, cause, hread, -⟩ := readFlags_eq_error_iff.1 (map_eq_error_iff.1 h)
            have hfirst := findPackageFile_eq_some_iff.1 hfile
            exact Or.inr ⟨p,
              { first := hfirst
                installed := ⟨dir, findInstallDir_eq_some_iff.1 hdir, required,
                  findRequired_eq_ok_iff.1 hrequired⟩
                asked := hasked
                notText := ((World.readText_eq_error_iff hfirst.1).1 hread).2 }⟩

/-- **What a failure says.** It names the package and says what is missing of it, unless nothing is
missing and the package file holds no text: then it names that file, and not the package. -/
theorem saysWhatIsMissing_iff (spec : PackageSpec) (hints : SearchHints) (w : World) :
    (spec.SaysWhatIsMissing hints w ↔ ∀ p, ¬ spec.IsUnreadable hints w p) ∧
      ∀ p, spec.IsUnreadable hints w p → spec.find hints w = .error (.system p .notText) := by
  refine ⟨⟨fun hsays p hp => ?_, fun hnone e he => ?_⟩, fun p hp => find_of_isUnreadable hp⟩
  · obtain ⟨shortfall, hmissing⟩ := hsays _ (find_of_isUnreadable hp)
    cases hmissing
  · rcases exists_shortfall_or_isUnreadable he with hshortfall | ⟨p, hp⟩
    · exact hshortfall
    · exact absurd hp (hnone p)

end PackageSpec

/-! ### A package file that is no text -/

namespace Sample

/-- The name that is spelled by the text. -/
def fileName (text : String) : FileName :=
  (FileName.ofChars? text.toList).getD ⟨"unnamed".toList, by rfl⟩

/-- A package that has all it needs, and one byte that begins no character in its package file. -/
def garbledTree : Tree where
  children :=
    [(fileName "g", .directory [
      (fileName "GearConfig.cmake", .file ⟨[.ofNat 255], false, none⟩),
      (fileName "headers", .directory []),
      (fileName "lib", .directory [(fileName "libgear.so", .file ⟨[], false, none⟩)])])]
  proper := by rfl

/-- The package with nothing else around. -/
def garbledWorld : World := .ofTree garbledTree []

/-- The place of the package. -/
def garbledHints : SearchHints := .register .empty "/g"

/-- Nothing is missing, and yet no package is found. -/
theorem isUnreadable_garbled :
    gear.IsUnreadable garbledHints garbledWorld "/g/GearConfig.cmake" where
  first := PackageSpec.isFirstFile_of_findPackageFile (by decide +kernel)
  installed := by
    refine ⟨"/g", PackageSpec.findInstallDir_eq_some_iff.1 (by decide +kernel),
      ["/g/lib/libgear.so"], .cons ?_ .nil⟩
    decide +kernel
  asked := by decide
  notText := ⟨⟨[.ofNat 255], false, none⟩, rfl, rfl⟩

/-- It is not said of the package that anything is missing. -/
theorem not_saysWhatIsMissing : ¬ gear.SaysWhatIsMissing garbledHints garbledWorld := by
  intro hsays
  have hfails : gear.find garbledHints garbledWorld =
      .error (.system "/g/GearConfig.cmake" .notText) := by
    rfl
  obtain ⟨shortfall, hmissing⟩ := hsays _ hfails
  cases hmissing

/-- The failure is laid to the file. Of the installations that lie in each other nothing fails. -/
theorem saysWhatIsMissing_iff_garbled :
    gear.find garbledHints garbledWorld = .error (.system "/g/GearConfig.cmake" .notText) ∧
      gear.SaysWhatIsMissing strayHints nestedWorld := by
  refine ⟨(PackageSpec.saysWhatIsMissing_iff gear garbledHints garbledWorld).2 _
    isUnreadable_garbled, ?_⟩
  refine (PackageSpec.saysWhatIsMissing_iff gear strayHints nestedWorld).1.2 fun p hp => ?_
  obtain ⟨dir, hdir, -⟩ := hp.installed
  have hfile : gear.findPackageFile strayHints nestedWorld = some "/u/GearConfig.cmake" := by
    decide +kernel
  have hnone : gear.findInstallDir "/u/GearConfig.cmake" nestedWorld = none := by decide +kernel
  have hfirst := PackageSpec.findPackageFile_eq_some_iff.2 hp.first
  obtain rfl := Option.some.inj (hfile.symm.trans hfirst)
  rw [PackageSpec.findInstallDir_eq_some_iff.2 hdir] at hnone
  cases hnone

end Sample

end ExtensionPlan
