import ExtensionPlan.Proofs.Artifact.Directives
import ExtensionPlan.Proofs.Text.Lines
import ExtensionPlan.CommandLine.Response

/-!
# ExtensionPlan.Proofs.Artifact.Shown

**What directives show.** Each line is a label of its own kind and a text that is put there as it is
(`Directive.line_eq`), so a break or a comma in that text is one in the line. Which texts these are
is told by the artifact (`Artifact.mem_directives_iff`): one step adds what one thing takes to be
linked, and a run of them what all of them take.
-/

namespace ExtensionPlan

/-! ### Lines -/

namespace CommandLine

theorem toList_unlines (lines : List String) :
    (unlines lines).toList = (lines.map String.toList).flatMap (· ++ ['\n']) := by
  rw [unlines, String.toList_join, List.flatMap_map, List.flatMap_map]
  simp only [String.toList_append]
  rfl

/-- Lines are read back as they were written exactly if none of them has a break inside. -/
theorem pieces_unlines_iff (lines : List String) :
    Text.pieces (· == '\n') (unlines lines).toList = lines.map String.toList ++ [[]] ↔
      ∀ line ∈ lines, '\n' ∉ line.toList := by
  rw [toList_unlines, Text.pieces_lines_iff, List.forall_mem_map]

end CommandLine

namespace Directive

/-! ### Labels and texts -/

/-- What the line of a directive of this kind begins with. -/
def label : Directive → String
  | .watch _ => "cargo:rerun-if-changed="
  | .search _ => "cargo:rustc-link-search=native="
  | .linkNamed _ => "cargo:rustc-link-lib="
  | .linkStatic _ => "cargo:rustc-link-lib=static="
  | .linkShared _ => "cargo:rustc-link-lib=dylib="
  | .linkerArg _ => "cargo:rustc-link-arg="
  | .warning _ => "cargo:warning="

/-- The text that the line shows. -/
def shown : Directive → String
  | .watch file => file.text
  | .search dir => dir.text
  | .linkNamed name => name
  | .linkStatic name => name
  | .linkShared name => name
  | .linkerArg arg => arg
  | .warning text => text

/-- The labels of all kinds. -/
def labels : List String :=
  ["cargo:rerun-if-changed=", "cargo:rustc-link-search=native=", "cargo:rustc-link-lib=",
    "cargo:rustc-link-lib=static=", "cargo:rustc-link-lib=dylib=", "cargo:rustc-link-arg=",
    "cargo:warning="]

theorem label_mem (d : Directive) : d.label ∈ labels := by
  cases d <;> simp [label, labels]

theorem line_eq (d : Directive) : d.line = d.label ++ d.shown := by
  cases d <;> rfl

theorem toList_line (d : Directive) : d.line.toList = d.label.toList ++ d.shown.toList := by
  rw [line_eq, String.toList_append]

theorem cargo_prefix_line (d : Directive) : "cargo:".toList <+: d.line.toList := by
  have hlabels : ∀ label ∈ labels, "cargo:".toList <+: label.toList := by decide
  rw [toList_line]
  exact (hlabels d.label d.label_mem).trans (List.prefix_append _ _)

theorem break_not_mem_label (d : Directive) : '\n' ∉ d.label.toList := by
  have hlabels : ∀ label ∈ labels, '\n' ∉ label.toList := by decide
  exact hlabels d.label d.label_mem

/-- A line has a break exactly if its text has one. -/
theorem break_mem_line_iff (d : Directive) : '\n' ∈ d.line.toList ↔ '\n' ∈ d.shown.toList := by
  rw [toList_line, List.mem_append]
  exact or_iff_right d.break_not_mem_label

/-- What comes after a break comes after one in the text. -/
theorem break_infix_line_iff {d : Directive} {start : List Char} :
    '\n' :: start <:+: d.line.toList ↔ '\n' :: start <:+: d.shown.toList := by
  rw [toList_line]
  exact Text.break_infix_append_iff d.break_not_mem_label d.shown.toList

/-- A line that begins with a mark has a label that is told from it by its length at most. -/
theorem prefix_label_of_prefix_line {d : Directive} {mark : List Char}
    (h : mark <+: d.line.toList) : mark <+: d.label.toList ∨ d.label.toList <+: mark := by
  rw [toList_line] at h
  exact List.prefix_or_prefix_of_prefix h (List.prefix_append _ _)

/-! ### Arguments of the linker -/

/-- The argument of the linker that a line hands on, if it does. -/
def linkerArg? : Directive → Option String
  | .linkerArg arg => some arg
  | _ => none

end Directive

/-- What a line that hands an argument on to the linker begins with. -/
def linkerLabel : List Char := "cargo:rustc-link-arg=".toList

/-- The value of a line that begins as those do that hand an argument on to the linker. -/
def linkerValue? (line : List Char) : Option (List Char) :=
  if linkerLabel <+: line then some (line.drop linkerLabel.length) else none

/-- Only such a line begins so. -/
theorem linkerLabel_prefix_iff {d : Directive} :
    linkerLabel <+: d.line.toList ↔ ∃ arg, d = .linkerArg arg := by
  have hlabels : ∀ label ∈ Directive.labels,
      linkerLabel <+: label.toList ∨ label.toList <+: linkerLabel →
        label = "cargo:rustc-link-arg=" := by decide
  constructor
  · intro h
    have hlabel := hlabels d.label d.label_mem (Directive.prefix_label_of_prefix_line h)
    cases d with
    | linkerArg arg => exact ⟨arg, rfl⟩
    | _ => simp [Directive.label] at hlabel
  · intro h
    obtain ⟨arg, rfl⟩ := h
    rw [Directive.toList_line]
    exact List.prefix_append linkerLabel arg.toList

/-- The values that are found by how lines begin are the arguments that are handed on. -/
theorem linkerValue?_line (d : Directive) :
    linkerValue? d.line.toList = d.linkerArg?.map String.toList := by
  unfold linkerValue?
  by_cases h : ∃ arg, d = .linkerArg arg
  · rw [if_pos (linkerLabel_prefix_iff.2 h)]
    obtain ⟨arg, rfl⟩ := h
    rw [Directive.toList_line]
    have hdrop : (linkerLabel ++ arg.toList).drop linkerLabel.length = arg.toList := List.drop_left
    exact congrArg some hdrop
  · rw [if_neg (mt linkerLabel_prefix_iff.1 h)]
    cases d with
    | linkerArg arg => exact absurd ⟨arg, rfl⟩ h
    | _ => rfl

/-! ### Which directives there are -/

/-- The directives that a thing takes to be linked. -/
def Linkable.Takes : Linkable → Directive → Prop
  | .named name, d => d = .linkNamed name
  | .file kind path, d =>
    (∃ dir, path.parent? = some dir ∧ d = .search dir) ∨ Directive.linkFile? kind path = some d

namespace Directive

theorem mem_addOnce {directives : List Directive} {d e : Directive} :
    d ∈ addOnce directives e ↔ d ∈ directives ∨ d = e := by
  unfold addOnce
  split
  · next he =>
    constructor
    · exact Or.inl
    · intro h
      rcases h with h | rfl
      · exact h
      · exact he
  · rw [List.mem_append, List.mem_singleton]

/-- **One thing more.** -/
theorem mem_addLinkable {directives : List Directive} {item : Linkable} {d : Directive} :
    d ∈ addLinkable directives item ↔ d ∈ directives ∨ item.Takes d := by
  cases item with
  | named name => rw [addLinkable, List.mem_append, List.mem_singleton, Linkable.Takes]
  | file kind path =>
      rw [addLinkable, Linkable.Takes]
      cases hdir : path.parent? with
      | none =>
          rw [addFile_of_parent?_none kind directives hdir, List.mem_append, Option.mem_toList]
          simp
      | some dir =>
          rw [addFile_of_parent? kind directives hdir, List.mem_append, mem_addOnce,
            Option.mem_toList]
          simp [or_assoc]

/-- **Any number of things.** -/
theorem mem_foldl_addLinkable {items : List Linkable} {directives : List Directive}
    {d : Directive} :
    d ∈ items.foldl addLinkable directives ↔
      d ∈ directives ∨ ∃ item ∈ items, item.Takes d := by
  induction items generalizing directives with
  | nil => simp
  | cons item items ih =>
      rw [List.foldl_cons, ih, mem_addLinkable, or_assoc]
      simp

end Directive

namespace Artifact

/-- The entries of the search path that is embedded, if one is. -/
def entries (a : Artifact) : List String := a.runtimePath.elim [] RuntimePath.entries

/-- The directives of an artifact. -/
theorem mem_directives_iff {a : Artifact} {d : Directive} :
    d ∈ a.directives ↔
      (∃ unit ∈ a.units, d = .watch unit.path) ∨ (∃ dir ∈ a.linkDirs, d = .search dir) ∨
        (∃ item ∈ a.linkables, item.Takes d) ∨
          ∃ entry ∈ a.entries, d = .linkerArg ("-Wl,-rpath," ++ entry) := by
  have hentries : (a.runtimePath.elim [] fun r => r.linkerArgs.map Directive.linkerArg) =
      a.entries.map fun entry => .linkerArg ("-Wl,-rpath," ++ entry) := by
    rw [entries]
    cases a.runtimePath with
    | none => rfl
    | some r => exact List.map_map
  rw [directives, hentries, Directive.foldl_addLibrary, List.mem_append,
    Directive.mem_foldl_addLinkable, List.mem_append, linkables]
  simp only [List.mem_map, eq_comm, or_assoc]

end Artifact

end ExtensionPlan
