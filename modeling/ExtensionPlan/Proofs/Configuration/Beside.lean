import ExtensionPlan.Proofs.Artifact.Growth
import ExtensionPlan.Proofs.SourceSet
import ExtensionPlan.Proofs.World.Location

/-!
# ExtensionPlan.Proofs.Configuration.Beside

**What is beside the source directory.** The directory around the source directory is found by
leaving out the last step of its absolute path. That is the directory around it, unless the last
step leads up (`Configuration.keepsBeside_iff`): without a name at the end to be left out, one comes
to a directory *inside* the source directory, and there bindings are looked for.

A source directory whose path takes no step at all, such as `.`, is the working directory, whose
path has a name at the end. So the last step of the path as it is spelled decides.
-/

namespace ExtensionPlan

/-! ### One step less -/

theorem getLast?_append_eq_some_iff {α : Type} {xs ys : List α} {a : α} (h : a ∉ xs) :
    (xs ++ ys).getLast? = some a ↔ ys.getLast? = some a := by
  rw [List.getLast?_append, Option.or_eq_some_iff]
  constructor
  · intro hlast
    rcases hlast with hlast | ⟨-, hlast⟩
    · exact hlast
    · exact absurd (List.mem_of_getLast? hlast) h
  · exact Or.inl

namespace World

variable {w : World} {p dir : Path} {around : Location} {name : FileName}
  {children : List (FileName × Node)}

/-- **One step less.** Above a path that leads to a directory there is one that leads to the
directory around, or into the directory if the last step leads up. -/
theorem exists_parent?_of_walk (plain : w.tree.IsPlain) (habsolute : p.isAbsolute = true)
    (hwalk : w.tree.walk Tree.linkLimit [] (Tree.spelled p.steps) =
      .ok (name :: around, .directory children)) :
    ∃ dir, p.parent? = some dir ∧ dir.isAbsolute = true ∧
      ∃ there below, w.tree.walk Tree.linkLimit [] (Tree.spelled dir.steps) =
        .ok (there, .directory below) ∧
      if p.steps.getLast? = some .parent then ∃ inner, there = inner :: name :: around
      else there = around := by
  have hfilled : p.steps ≠ [] := by
    intro hnone
    rw [hnone] at hwalk
    have hroot := (Tree.walk_nil_eq_ok_iff.1 hwalk).1
    cases hroot
  obtain ⟨dir, hdir, hdirAbsolute, hsteps⟩ := Path.exists_parent?_of_steps hfilled
  refine ⟨dir, hdir, hdirAbsolute.trans habsolute, ?_⟩
  obtain ⟨front, last, hfront⟩ : ∃ front last, p.steps = front ++ [last] :=
    ⟨_, _, (List.dropLast_append_getLast hfilled).symm⟩
  rw [hfront, List.dropLast_concat] at hsteps
  obtain ⟨piece, hpiece, hlast⟩ := Path.mem_steps_iff.1 (show last ∈ p.steps by simp [hfront])
  have whole : '/' ∉ piece := fun hslash => by
    simpa using Text.not_isSeparator_of_mem_pieces hpiece '/' hslash
  have hspelled : Tree.spelled [last] = [piece] := by
    show [last.path.chars] = [piece]
    rw [(Component.isStep_of_ofPiece? hlast).2]
  rw [hfront, Tree.spelled_append, hspelled] at hwalk
  rw [hsteps, hfront, List.getLast?_concat]
  cases hreached : w.tree.walk Tree.linkLimit [] (Tree.spelled front) with
  | error e =>
      rw [Tree.walk_append_error hreached] at hwalk
      cases hwalk
  | ok reached =>
      obtain ⟨there, node⟩ := reached
      obtain ⟨hnode, left, hback⟩ := Tree.exists_walk_append hreached
      rw [hback] at hwalk
      obtain ⟨below, hbelow⟩ := Tree.exists_directory_of_walk_cons hwalk
      rw [hnode] at hbelow
      cases hbelow
      refine ⟨there, below, rfl, ?_⟩
      have hstep := plain.walk_step whole hlast hwalk
      by_cases hparent : last = .parent
      · rw [if_pos hparent] at hstep
        rw [if_pos (congrArg some hparent)]
        cases there with
        | nil => cases hstep
        | cons inner outer =>
            obtain rfl : name :: around = outer := hstep
            exact ⟨inner, rfl⟩
      · rw [if_neg hparent] at hstep
        rw [if_neg (fun h => hparent (Option.some.inj h))]
        obtain ⟨entered, heq⟩ := hstep
        exact (List.cons.inj heq).2.symm

/-- Names behind the path of a directory lead to what has them there. -/
theorem location?_join (plain : w.tree.IsPlain) (habsolute : p.isAbsolute = true)
    (hwalk : w.tree.walk Tree.linkLimit [] (Tree.spelled dir.steps) =
      .ok (around, .directory children)) (names : List FileName)
    (hsteps : p.steps = dir.steps ++ names.map fun name => .name name.chars) (last : FileName)
    (there : Location) :
    w.location? (p.join last.path) = some there ↔
      there = last :: (names.reverse ++ around) ∧
        (w.tree.node? (last :: (names.reverse ++ around))).isSome = true := by
  have hrelative : last.path.isAbsolute = false := last.isName.not_isAbsolute
  have hpieces : Tree.piecesOf last.path = [last.chars] :=
    Text.pieces_of_not_mem last.isName.whole
  have hjoin : (p.join last.path).isAbsolute = true := Path.isAbsolute_join habsolute _
  have hspelled : Tree.spelled (names.map fun name => .name name.chars) =
      names.map (·.chars) := by
    rw [Tree.spelled, List.map_map]
    rfl
  obtain ⟨-, left, hback⟩ := Tree.exists_walk_append hwalk
  have hway : w.tree.walk Tree.linkLimit [] (Tree.piecesOf (p.join last.path) ++ []) =
      w.tree.walk Tree.linkLimit [] (Tree.spelled p.steps ++ (Tree.piecesOf last.path ++ [])) :=
    Tree.walk_join hrelative p []
  rw [List.append_nil, List.append_nil, hpieces, hsteps, Tree.spelled_append, hspelled,
    List.append_assoc, hback] at hway
  rw [location?_eq_some_iff (Or.inl hjoin), Tree.startOf, if_pos hjoin, hway]
  simp only [plain.walk_names, plain.walk_name, Tree.walk_nil_eq_ok_iff,
    Option.isSome_iff_exists, exists_and_left]
  constructor
  · exact fun h => h.2
  · exact fun h => ⟨Path.filled_of_isAbsolute hjoin, h⟩

end World

/-! ### The bindings -/

/-- The bindings are those that are searched in one directory. -/
theorem SourceSet.findIn_of_discover {c : Configuration} {w : World} {s : SourceSet} {dir : Path}
    (h : discover c w = .ok s) (hdir : c.bindingsDirectory w = .ok dir) :
    findIn w dir ("*." ++ c.sourceExtension) .sourceExtension = .ok s.bindings := by
  unfold discover at h
  simp only [bind_eq_ok_iff, pure_eq_ok_iff] at h
  obtain ⟨source, -, native, -, beside, hbeside, bindings, hbindings, kernels, -, rfl⟩ := h
  rw [hdir] at hbeside
  cases hbeside
  exact hbindings

namespace Configuration

variable {c : Configuration} {w : World} {name : FileName} {around : Location}

/-- The bindings of a configuration are taken from the location: the directory of the bindings is
the path of what is there, its files with the extension are the bindings that are discovered, and
an assembled module is compiled with it as an include directory. -/
structure TakesBindingsFrom (c : Configuration) (w : World) (location : Location) (dir : Path) :
    Prop where
  directory : c.bindingsDirectory w = .ok dir
  leads : ∀ there, w.location? dir = some there ↔
    there = location ∧ (w.tree.node? location).isSome = true
  searched : ∀ s, SourceSet.discover c w = .ok s →
    SourceSet.findIn w dir ("*." ++ c.sourceExtension) .sourceExtension = .ok s.bindings
  /-- A path that cannot be looked up leads to no directory and to no file. -/
  discovered : SourceSet.IsPlain c.sourceExtension → ∀ s, SourceSet.discover c w = .ok s →
    ∀ p, p ∈ s.bindings ↔ w.isDirectory dir = true ∧ ∃ file : FileName,
      '.' :: c.sourceExtension.toList <:+ file.chars ∧
        p = (World.searched dir).join file.path ∧ w.location? p = some (file :: location) ∧
          w.isFile p = true
  included : ∀ t s a, Artifact.assemble c t s w = .ok a →
    ⟨t.tensor.includeDirs ++ [dir]⟩ ∈ a.includeRules

/-- The directory above the source directory is the location around it, and the bindings are taken
from what is beside the source directory. -/
structure KeepsBeside (c : Configuration) (w : World) (around : Location) : Prop where
  parent : ∃ dir, c.parentDirectory w = .ok dir ∧ w.location? dir = some around ∧
    ∀ t s a, Artifact.assemble c t s w = .ok a →
      ⟨t.tensor.includeDirs ++ [dir]⟩ ∈ a.includeRules
  bindings : ∀ b : FileName, c.bindingsDirName.toList = b.chars →
    ∃ dir, c.TakesBindingsFrom w (b :: around) dir

/-- Where the source directory leads, its absolute path does, and all above follows from that. -/
theorem exists_parentDirectory (plain : w.tree.IsPlain) (hlocated : w.IsLocated c.sourceDir)
    (hsource : w.location? c.sourceDir = some (name :: around))
    (hdirectory : w.tree.get? (name :: around) = some .directory) :
    ∃ dir, c.parentDirectory w = .ok dir ∧ dir.isAbsolute = true ∧
      ∃ there below, w.tree.walk Tree.linkLimit [] (Tree.spelled dir.steps) =
        .ok (there, .directory below) ∧
      if c.sourceDir.components.getLast? = some .parent then
        ∃ inner, there = inner :: name :: around
      else there = around := by
  obtain ⟨source, habsolute⟩ := World.exists_absolute hlocated hsource
  have hshort : c.sourceDir.isAbsolute = false → ∀ name ∈ w.here.location,
      Text.byteCount name.chars ≤ Tree.nameLimit := by
    intro hrelative
    obtain ⟨-, cwd, -, hcwd⟩ := World.absolute_eq_ok_iff.1 habsolute
    rw [hrelative, if_neg Bool.false_ne_true] at hcwd
    obtain ⟨node, hnode, -⟩ :=
      Option.map_eq_some_iff.1 (World.currentDirectory_eq_ok_iff.1 hcwd).2.1
    exact (plain.of_node? hnode).1
  obtain ⟨children, hwalk⟩ :=
    World.exists_walk_of_absolute habsolute hshort hsource hdirectory
  obtain ⟨dir, hdir, hroot, there, below, hbelow, hplace⟩ :=
    World.exists_parent?_of_walk plain (World.isAbsolute_of_absolute habsolute) hwalk
  have hparent : c.parentDirectory w = .ok dir := by
    rw [parentDirectory, sourceDirectory, absolute, habsolute]
    show Except.ok (source.parent?.getD source) = .ok dir
    rw [hdir, Option.getD_some]
  have hup : Component.parent ∉ c.sourceDir.leadComponents := by
    unfold Path.leadComponents
    split
    · simp
    · split <;> simp
  have hnames : Component.parent ∉ if c.sourceDir.isAbsolute then [] else
      World.stepsTo w.here.location := by
    split <;> simp [World.stepsTo]
  have hlast : source.steps.getLast? = some .parent ↔
      c.sourceDir.components.getLast? = some .parent := by
    rw [World.steps_of_absolute habsolute, getLast?_append_eq_some_iff hnames,
      Path.components_eq, getLast?_append_eq_some_iff hup]
  simp only [hlast] at hplace
  exact ⟨dir, hparent, hroot, there, below, hbelow, hplace⟩

/-- Beside the directory that is found above the source directory are the bindings. -/
theorem exists_takesBindingsFrom (plain : w.tree.IsPlain) {parent : Path}
    {children : List (FileName × Node)} (hparent : c.parentDirectory w = .ok parent)
    (habsolute : parent.isAbsolute = true)
    (hwalk : w.tree.walk Tree.linkLimit [] (Tree.spelled parent.steps) =
      .ok (around, .directory children)) {b : FileName} (hb : c.bindingsDirName.toList = b.chars) :
    c.TakesBindingsFrom w (b :: around) (parent.join b.path) := by
  have hname : Path.ofString c.bindingsDirName = b.path := congrArg Path.mk hb
  have hdir : c.bindingsDirectory w = .ok (parent.join b.path) := by
    rw [bindingsDirectory, hparent, ← hname]
    rfl
  have hjoin : (parent.join b.path).isAbsolute = true := Path.isAbsolute_join habsolute _
  have hleads := World.location?_join plain habsolute hwalk [] (List.append_nil _).symm b
  have hsteps : (World.searched (parent.join b.path)).steps =
      parent.steps ++ [b].map fun name => .name name.chars := by
    rw [Path.steps_eq_of_components (World.components_searched hjoin), Path.steps_join,
      show b.path.isAbsolute = false from b.isName.not_isAbsolute, if_neg Bool.false_ne_true,
      show b.path.steps = [.name b.chars] from Path.steps_of_isName b.isName]
    rfl
  have hfiles := World.location?_join plain (World.isAbsolute_searched hjoin) hwalk [b] hsteps
  constructor
  case directory => exact hdir
  case leads => exact hleads
  case searched => exact fun s hs => SourceSet.findIn_of_discover hs hdir
  case included =>
    intro t s a ha
    obtain ⟨-, source, -, above, -, bindings, hbindings, rfl⟩ := Artifact.assemble_eq_ok_iff.1 ha
    rw [hdir] at hbindings
    cases hbindings
    simp
  case discovered =>
    intro hplain s hs p
    obtain ⟨files, hfound, hlists⟩ :=
      SourceSet.exists_findIn_star (w := w) hjoin hplain .sourceExtension
    rw [SourceSet.findIn_of_discover hs hdir] at hfound
    cases hfound
    have hfileAt : ∀ file : FileName,
        w.IsLocated ((World.searched (parent.join b.path)).join file.path) := fun file =>
      Or.inl (Path.isAbsolute_join (World.isAbsolute_searched hjoin) file.path)
    rw [hlists.mem_iff]
    constructor
    · intro hp
      obtain ⟨file, hentry, hending, rfl, hfile⟩ := hp
      have hdirectory := ((World.hasEntry_iff_location? (Or.inl hjoin)).1 hentry).1
      obtain ⟨content, hcontent⟩ := World.isFile_iff.1 hfile
      obtain ⟨-, there, hthere, -⟩ := (World.find_eq_ok_iff_location? (hfileAt file)).1 hcontent
      obtain rfl := ((hfiles file there).1 hthere).1
      exact ⟨hdirectory, file, hending, rfl, hthere, hfile⟩
    · intro hp
      obtain ⟨hdirectory, file, hending, rfl, hthere, hfile⟩ := hp
      obtain ⟨below, hbelow⟩ := World.isDirectory_iff.1 hdirectory
      obtain ⟨-, location, hlocation, -⟩ :=
        (World.find_eq_ok_iff_location? (Or.inl hjoin)).1 hbelow
      obtain rfl := ((hleads location).1 hlocation).1
      have hsome := ((hfiles file _).1 hthere).2
      have hentry := (World.hasEntry_iff_location? (Or.inl hjoin)).2
        ⟨hdirectory, _, hlocation, hsome⟩
      exact ⟨file, hentry, hending, rfl, hfile⟩

/-- **The directory beside.** For a source directory that is in the tree and is not its root, the
directory above is the one around it and the bindings are taken from beside it, exactly if its path
is seen from somewhere and does not end in a step up. If it does, the directory above is one inside
the source directory. -/
theorem keepsBeside_iff (plain : w.tree.IsPlain)
    (hsource : w.location? c.sourceDir = some (name :: around))
    (hdirectory : w.tree.get? (name :: around) = some .directory) :
    (c.KeepsBeside w around ↔
      w.IsLocated c.sourceDir ∧ c.sourceDir.components.getLast? ≠ some .parent) ∧
    (w.IsLocated c.sourceDir → c.sourceDir.components.getLast? = some .parent →
      ∃ dir inner, c.parentDirectory w = .ok dir ∧
        w.location? dir = some (inner :: name :: around)) := by
  refine ⟨⟨fun h => ?_, fun h => ?_⟩, fun hlocated hup => ?_⟩
  · obtain ⟨dir, hdir, hlocation, -⟩ := h.parent
    obtain ⟨source, hsourceDirectory, -⟩ := map_eq_ok_iff.1 hdir
    have hlocated := World.isLocated_of_absolute (mapError_eq_ok_iff.1 hsourceDirectory)
    refine ⟨hlocated, fun hup => ?_⟩
    obtain ⟨above, habove, habsolute, there, below, hwalk, hplace⟩ :=
      exists_parentDirectory plain hlocated hsource hdirectory
    rw [if_pos hup] at hplace
    obtain ⟨inner, rfl⟩ := hplace
    rw [hdir] at habove
    cases habove
    rw [World.location?_of_spelled habsolute hwalk] at hlocation
    have hlength := congrArg List.length (Option.some.inj hlocation)
    rw [List.length_cons, List.length_cons] at hlength
    omega
  · obtain ⟨hlocated, hup⟩ := h
    obtain ⟨dir, hdir, habsolute, there, below, hwalk, hplace⟩ :=
      exists_parentDirectory plain hlocated hsource hdirectory
    rw [if_neg hup] at hplace
    subst hplace
    refine ⟨⟨dir, hdir, World.location?_of_spelled habsolute hwalk, fun t s a ha => ?_⟩,
      fun b hb => ⟨_, exists_takesBindingsFrom plain hdir habsolute hwalk hb⟩⟩
    obtain ⟨-, source, -, above, habove, bindings, -, rfl⟩ := Artifact.assemble_eq_ok_iff.1 ha
    rw [hdir] at habove
    cases habove
    simp
  · obtain ⟨dir, hdir, habsolute, there, below, hwalk, hplace⟩ :=
      exists_parentDirectory plain hlocated hsource hdirectory
    rw [if_pos hup] at hplace
    obtain ⟨inner, rfl⟩ := hplace
    exact ⟨dir, inner, hdir, World.location?_of_spelled habsolute hwalk⟩

end Configuration

/-! ### A source directory that is seen from inside -/

namespace Sample

/-- The directory around the source directory. -/
def home : FileName := ⟨"home".toList, by rfl⟩

/-- The name of the source directory. -/
def work : FileName := ⟨"work".toList, by rfl⟩

/-- A source directory with one directory in it, and directories of bindings beside it and in the
inner directory. -/
def asideTree : Tree where
  children :=
    [(home, .directory [
      (work, .directory [
        (⟨"inner".toList, by rfl⟩, .directory [
          (⟨"pybind".toList, by rfl⟩, .directory [
            (⟨"stray.cc".toList, by rfl⟩, .file ⟨[], false, none⟩)])])]),
      (⟨"pybind".toList, by rfl⟩, .directory [
        (⟨"bound.cc".toList, by rfl⟩, .file ⟨[], false, none⟩)])])]
  proper := by rfl

/-- The inner directory is the working directory. -/
def asideWorld : World :=
  .ofTree asideTree (⟨"inner".toList, by rfl⟩ :: work :: [home])

/-- From inside, the source directory is the step up, and above that is the directory that it is
seen from. -/
theorem not_keepsBeside : asideWorld.location? ".." = some (work :: [home]) ∧
    ¬ (Configuration.ofSourceDir ".." .table).KeepsBeside asideWorld [home] := by
  refine ⟨by decide +kernel, fun h => ?_⟩
  obtain ⟨dir, hdir, hlocation, -⟩ := h.parent
  have hinner : (Configuration.ofSourceDir ".." .table).parentDirectory asideWorld =
      .ok "/home/work/inner" := by rfl
  obtain rfl := Except.ok.inj (hinner.symm.trans hdir)
  exact absurd hlocation (by decide +kernel)

/-- With its name at the end, the path of the source directory leaves the bindings beside it. -/
theorem keepsBeside_iff_aside : asideWorld.tree.IsPlain ∧
    (Configuration.ofSourceDir "../../work/." .table).KeepsBeside asideWorld [home] ∧
    ∃ dir inner, (Configuration.ofSourceDir ".." .table).parentDirectory asideWorld = .ok dir ∧
      asideWorld.location? dir = some (inner :: work :: [home]) := by
  have plain : asideWorld.tree.IsPlain := by decide +kernel
  have hdirectory : asideWorld.tree.get? (work :: [home]) = some .directory := by rfl
  have hname : asideWorld.location? "../../work/." = some (work :: [home]) := by decide +kernel
  have hup : asideWorld.location? ".." = some (work :: [home]) := by decide +kernel
  refine ⟨plain, ?_, ?_⟩
  · exact (Configuration.keepsBeside_iff plain hname hdirectory).1.2 ⟨Or.inr rfl, by decide⟩
  · exact (Configuration.keepsBeside_iff plain hup hdirectory).2 (Or.inr rfl) (by decide)

end Sample

end ExtensionPlan
