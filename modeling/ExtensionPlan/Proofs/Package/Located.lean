import ExtensionPlan.Proofs.Package
import ExtensionPlan.Proofs.Path.Ancestors
import Mathlib.Data.Prod.Lex

/-!
# ExtensionPlan.Proofs.Package.Located

**Where a package is found.** Of all candidates the first one that is a regular file is the package
file, by the position of the hint and then by that of the candidate below it. The package is
installed in the nearest directory above that has its first include directory, and everything else
follows from there (`PackageSpec.Locates`).

Hints that are registered later come after those that are there, so they are not asked once there is
a package file, whatever it leads to: the same package is found, or it fails for the same reason
(`PackageSpec.locates_of_find`).
-/

namespace ExtensionPlan

namespace PackageSpec

variable {spec : PackageSpec} {hints : SearchHints} {w : World}

/-! ### The package file -/

/-- The candidate below the hint at the first position, at the second position among those below
this hint. -/
def candidateAt? (spec : PackageSpec) (hints : SearchHints) (place : ℕ × ℕ) : Option Path :=
  hints.dirs[place.1]?.bind fun hint => (spec.candidates hint)[place.2]?

/-- A candidate that is a regular file, and there is none at an earlier place. -/
def IsFirstFile (spec : PackageSpec) (hints : SearchHints) (w : World) (p : Path) : Prop :=
  w.isFile p = true ∧ ∃ place, spec.candidateAt? hints place = some p ∧
    ∀ other q, spec.candidateAt? hints other = some q → w.isFile q = true →
      toLex place ≤ toLex other

theorem isFirstFile_of_findPackageFile {p : Path} (h : spec.findPackageFile hints w = some p) :
    spec.IsFirstFile hints w p := by
  rw [findPackageFile, List.find?_flatMap] at h
  obtain ⟨before, hint, after, hdirs, hfound, hbefore⟩ := List.findSome?_eq_some_iff.1 h
  obtain ⟨hfile, above, below, hcandidates, habove⟩ := List.find?_eq_some_iff_append.1 hfound
  refine ⟨hfile, (before.length, above.length), by simp [candidateAt?, hdirs, hcandidates], ?_⟩
  rintro ⟨i, j⟩ q hq hregular
  obtain ⟨hint', hhint, hcandidate⟩ := Option.bind_eq_some_iff.1 hq
  rw [Prod.Lex.toLex_le_toLex]
  dsimp only at hhint hcandidate ⊢
  rcases Nat.lt_trichotomy before.length i with hi | rfl | hi
  · exact .inl hi
  · -- another candidate below the same hint
    obtain rfl : hint = hint' := by simpa [hdirs] using hhint
    refine .inr ⟨rfl, Nat.le_of_not_lt fun hj => ?_⟩
    rw [hcandidates, List.getElem?_append_left hj] at hcandidate
    have hnone := habove q (List.mem_of_getElem? hcandidate)
    simp [hregular] at hnone
  · -- a candidate below an earlier hint
    rw [hdirs, List.getElem?_append_left hi] at hhint
    have hnone := List.find?_eq_none.1 (hbefore hint' (List.mem_of_getElem? hhint)) q
      (List.mem_of_getElem? hcandidate)
    exact absurd hregular hnone

theorem exists_findPackageFile {place : ℕ × ℕ} {p : Path}
    (hplace : spec.candidateAt? hints place = some p) (hfile : w.isFile p = true) :
    ∃ packageFile, spec.findPackageFile hints w = some packageFile := by
  obtain ⟨hint, hhint, hcandidate⟩ := Option.bind_eq_some_iff.1 hplace
  refine Option.isSome_iff_exists.1 (List.find?_isSome.2 ⟨p, List.mem_flatMap.2 ?_, hfile⟩)
  exact ⟨hint, List.mem_of_getElem? hhint, List.mem_of_getElem? hcandidate⟩

/-! ### More hints -/

/-- Hints that come later do not change what the earlier ones lead to. -/
theorem findPackageFile_of_longer {hints' : SearchHints} {p : Path}
    (hfront : hints.dirs <+: hints'.dirs) (h : spec.findPackageFile hints w = some p) :
    spec.findPackageFile hints' w = some p := by
  obtain ⟨more, hmore⟩ := hfront
  rw [findPackageFile] at h ⊢
  rw [← hmore, List.flatMap_append, List.find?_append, h, Option.some_or]

/-- The hints are for the package file, and nothing else is looked for with them. -/
theorem find_eq_of_findPackageFile {hints' : SearchHints} {p : Path}
    (h : spec.findPackageFile hints w = some p) (h' : spec.findPackageFile hints' w = some p) :
    spec.find hints' w = spec.find hints w := by
  rw [find, find, h, h']

/-! ### What is found -/

/-- The package is the one that the hints lead to. Its first include directory is called `first`. -/
structure Locates (spec : PackageSpec) (hints : SearchHints) (w : World) (first : String)
    (package : Package) : Prop where
  name : package.name = spec.name
  packageFile : spec.IsFirstFile hints w package.packageFile
  installDir : Path.IsNearestAbove (fun dir => w.isDirectory (dir.join first)) package.packageFile
    package.installDir
  includeDirs : package.includeDirs =
    (spec.includeDirs.map fun place : String => package.installDir.join place).filter w.isDirectory
  beginning : package.includeDirs.head? = some (package.installDir.join first)
  libDirs : package.libDirs =
    (["lib", "lib64"].map fun place : String => package.installDir.join place).filter w.isDirectory
  /-- One file for each name: those that are required, and of the others those that are found. -/
  libraries : List.Forall₂ (fun name file => w.findLibrary name package.libDirs = .ok file)
    (spec.requiredLibraries ++
      spec.optionalLibraries.filter fun name => (w.findLibrary name package.libDirs).isOk)
    package.libraries
  flags : spec.readFlags package.packageFile w = .ok package.flags

variable {first : String} {others : List String}

theorem locates_of_find_eq_ok (hspec : spec.includeDirs = first :: others) {package : Package}
    (h : spec.find hints w = .ok package) : spec.Locates hints w first package := by
  have hbeginning := exists_includeDirs_of_find h hspec
  obtain ⟨packageFile, hfile, installDir, hdir, required, hrequired, flags, hflags, rfl⟩ :=
    find_eq_ok_iff.1 h
  rw [findInstallDir, primaryInclude, hspec, List.head?_cons, Option.getD_some] at hdir
  exact
    { name := rfl
      packageFile := isFirstFile_of_findPackageFile hfile
      installDir := Path.isNearestAbove_of_find? hdir
      includeDirs := rfl
      beginning := by rw [hbeginning, List.head?_cons]
      libDirs := rfl
      libraries := List.rel_append hrequired (w.forall₂_foundFiles _ spec.optionalLibraries)
      flags := hflags }

/-- **What is found stays.** A package that is found is the one that the hints lead to, and with
further hints it is found again. If there is a package file then it is with all other results as
well: what fails goes on to fail, and for the same reason. -/
theorem locates_of_find (hspec : spec.includeDirs = first :: others) (hints : SearchHints)
    (w : World) (further : List Path) :
    (∀ package, spec.find hints w = .ok package →
      spec.Locates hints w first package ∧
        spec.find (further.foldl SearchHints.register hints) w = .ok package) ∧
    ∀ e, spec.find hints w = .error e →
      (∃ place file, spec.candidateAt? hints place = some file ∧ w.isFile file = true) →
        spec.find (further.foldl SearchHints.register hints) w = .error e := by
  have hstays : ∀ packageFile, spec.findPackageFile hints w = some packageFile →
      spec.find (further.foldl SearchHints.register hints) w = spec.find hints w :=
    fun packageFile hfile => find_eq_of_findPackageFile hfile
      (findPackageFile_of_longer (hints.prefix_foldl_register further) hfile)
  constructor
  · intro package hfind
    obtain ⟨packageFile, hfile, -⟩ := find_eq_ok_iff.1 hfind
    exact ⟨locates_of_find_eq_ok hspec hfind, (hstays packageFile hfile).trans hfind⟩
  · rintro e hfind ⟨place, file, hplace, hregular⟩
    obtain ⟨packageFile, hfile⟩ := exists_findPackageFile hplace hregular
    exact (hstays packageFile hfile).trans hfind

end PackageSpec

/-! ### One installation in another -/

namespace Sample

/-- A package with a package file and one library that is required. -/
def gear : PackageSpec where
  name := "Gear"
  packageFile := "GearConfig.cmake"
  includeDirs := ["headers", "headers/teeth"]
  requiredLibraries := ["gear"]
  optionalLibraries := ["axle", "wheel"]
  flagsVariable := some "GEAR_FLAGS"

/-- Two directories with headers, of which one is in the other, and a package file further down in
the inner one. The outer one has a directory in the place of a package file, and there is a package
file that belongs to nothing. -/
def nestedTree : Tree where
  children :=
    [(⟨"o".toList, by rfl⟩, .directory [
        (⟨"GearConfig.cmake".toList, by rfl⟩, .directory []),
        (⟨"headers".toList, by rfl⟩, .directory []),
        (⟨"i".toList, by rfl⟩, .directory [
          (⟨"headers".toList, by rfl⟩, .directory []),
          (⟨"lib64".toList, by rfl⟩, .directory [
            (⟨"libgear.a".toList, by rfl⟩, .file ⟨[], false, none⟩),
            (⟨"libwheel.so.12".toList, by rfl⟩, .file ⟨[], false, none⟩)]),
          (⟨"share".toList, by rfl⟩, .directory [
            (⟨"cmake".toList, by rfl⟩, .directory [
              (⟨"gear".toList, by rfl⟩, .directory [
                (⟨"GearConfig.cmake".toList, by rfl⟩, .file ⟨[], false, none⟩)])])])])]),
      (⟨"u".toList, by rfl⟩, .directory [
        (⟨"GearConfig.cmake".toList, by rfl⟩, .file ⟨[], false, none⟩)])]
  proper := by rfl

/-- The installations with nothing else around. -/
def nestedWorld : World := .ofTree nestedTree []

/-- The hints of the outer and of the inner directory. -/
def nestedHints : SearchHints := (SearchHints.empty.register "/o").register "/o/i"

/-- The hint of the package file that belongs to nothing. -/
def strayHints : SearchHints := SearchHints.empty.register "/u"

/-- The inner installation is found, also with the stray package file as a further hint. With that
one first nothing is found, also with the installations as further hints. -/
theorem locates_of_find_nested : gear.includeDirs = "headers" :: ["headers/teeth"] ∧
    (∃ package, gear.find nestedHints nestedWorld = .ok package ∧
      gear.Locates nestedHints nestedWorld "headers" package ∧
      gear.find (["/u"].foldl SearchHints.register nestedHints) nestedWorld = .ok package) ∧
    ∃ e, gear.find strayHints nestedWorld = .error e ∧
      gear.find (["/o", "/o/i"].foldl SearchHints.register strayHints) nestedWorld = .error e := by
  refine ⟨rfl, ?_, ?_⟩
  · have hisOk : (gear.find nestedHints nestedWorld).isOk = true := by decide +kernel
    cases hfind : gear.find nestedHints nestedWorld with
    | error e =>
        rw [hfind] at hisOk
        cases hisOk
    | ok package =>
        have hfound := (PackageSpec.locates_of_find rfl nestedHints nestedWorld ["/u"]).1
          package hfind
        exact ⟨package, rfl, hfound⟩
  · have hisOk : (gear.find strayHints nestedWorld).isOk = false := by decide +kernel
    have hplace : gear.candidateAt? strayHints (0, 0) = some "/u/GearConfig.cmake" := by
      decide +kernel
    have hfile : nestedWorld.isFile "/u/GearConfig.cmake" = true := by decide +kernel
    cases hfind : gear.find strayHints nestedWorld with
    | ok package =>
        rw [hfind] at hisOk
        cases hisOk
    | error e =>
        have hfails := (PackageSpec.locates_of_find rfl strayHints nestedWorld ["/o", "/o/i"]).2
          e hfind ⟨(0, 0), _, hplace, hfile⟩
        exact ⟨e, rfl, hfails⟩

end Sample

end ExtensionPlan
