import ExtensionPlan.Artifact.Directive
import Mathlib.Data.List.Forall2
import Mathlib.Data.List.Nodup

/-!
# ExtensionPlan.Proofs.Artifact.Directives

**How the directives of an artifact come about.** After the files to watch, directives are added
one at the end of the others and in two ways only: a directory is searched that was not, or a
`Linkable` is linked for which its directory is searched. `Linking` says so, and what holds of the
directives is shown by induction on it. That the directives of an artifact come about so
(`Artifact.exists_linking`) takes that each of its files has a directory and a link name; a file
without one would be left out.
-/

namespace ExtensionPlan

namespace Directive

/-! ### Kinds of directives -/

/-- Does the directive name a directory to search? -/
def isSearch : Directive → Bool
  | .search _ => true
  | _ => false

/-- The name that the directive links, if it links one. -/
def linked? : Directive → Option String
  | .linkNamed name => some name
  | .linkStatic name => some name
  | .linkShared name => some name
  | _ => none

/-- Does the directive link a library? -/
def isLink (d : Directive) : Bool := d.linked?.isSome

/-- Does the directive link a library that is given by a file? -/
def isFileLink : Directive → Bool
  | .linkStatic _ => true
  | .linkShared _ => true
  | _ => false

/-- Directives of one kind are all dropped by a test that none of that kind passes. -/
theorem filter_map_eq_nil {α : Type} {test : Directive → Bool} {f : α → Directive}
    (h : ∀ x, test (f x) = false) (xs : List α) : (xs.map f).filter test = [] := by
  rw [List.filter_eq_nil_iff]
  intro d hd
  obtain ⟨x, -, rfl⟩ := List.mem_map.1 hd
  rw [h x]
  exact Bool.false_ne_true

theorem line_search (dir : Path) :
    (search dir).line = "cargo:rustc-link-search=native=" ++ dir.text := rfl

/-- The lines of two directories are different. -/
theorem line_search_injective {p q : Path} (h : (search p).line = (search q).line) : p = q := by
  rw [line_search, line_search] at h
  have hchars := congrArg String.toList h
  rw [String.toList_append, String.toList_append] at hchars
  exact Path.text_injective (String.toList_injective (List.append_cancel_left hchars))

theorem addFile_of_parent? (kind : LinkKind) (directives : List Directive) {file dir : Path}
    (h : file.parent? = some dir) :
    addFile kind directives file =
      addOnce directives (.search dir) ++ (linkFile? kind file).toList := by
  rw [addFile, h]
  rfl

theorem addFile_of_parent?_none (kind : LinkKind) (directives : List Directive) {file : Path}
    (h : file.parent? = none) :
    addFile kind directives file = directives ++ (linkFile? kind file).toList := by
  rw [addFile, h]
  rfl

theorem isLink_of_linkFile? {kind : LinkKind} {file : Path} {d : Directive}
    (h : linkFile? kind file = some d) : d.isLink = true ∧ d.isFileLink = true := by
  unfold linkFile? at h
  obtain ⟨name, -, rfl⟩ := Option.map_eq_some_iff.1 h
  split <;> exact ⟨rfl, rfl⟩

end Directive

/-! ### What is linked -/

/-- One thing to be linked. -/
inductive Linkable where
  /-- A library in one of the directories searched. -/
  | named (name : String)
  | file (kind : LinkKind) (path : Path)

namespace Linkable

/-- The directive links this and nothing else. -/
def IsLinkedBy : Linkable → Directive → Prop
  | .named name, d => d = .linkNamed name
  | .file kind path, d => Directive.linkFile? kind path = some d

/-- The directory of the file is searched. -/
def IsSearched (directives : List Directive) : Linkable → Prop
  | .named _ => True
  | .file _ path => ∃ dir, path.parent? = some dir ∧ .search dir ∈ directives

/-- The file has a directory and a name to be linked by. -/
def CanLink : Linkable → Prop
  | .named _ => True
  | .file _ path => (∃ dir, path.parent? = some dir) ∧ ∃ name, linkName? path = some name

/-- The file with the kind it is linked as, if this is a file. -/
def file? : Linkable → Option (LinkKind × Path)
  | .named _ => none
  | .file kind path => some (kind, path)

/-- The name by which this is linked, if it has one. -/
def linkedName? : Linkable → Option String
  | .named name => some name
  | .file _ path => linkName? path

theorem linked?_of_isLinkedBy {item : Linkable} {d : Directive} (h : item.IsLinkedBy d) :
    d.linked? = item.linkedName? := by
  cases item with
  | named name =>
      cases h
      rfl
  | file kind path =>
      obtain ⟨name, hname, rfl⟩ := Option.map_eq_some_iff.1 h
      rw [linkedName?, hname]
      split <;> rfl

theorem isLink_of_isLinkedBy {item : Linkable} {d : Directive} (h : item.IsLinkedBy d) :
    d.isLink = true := by
  cases item with
  | named name =>
      cases h
      rfl
  | file kind path => exact (Directive.isLink_of_linkFile? h).1

end Linkable

/-- What is linked for a library. -/
def LibraryHandle.linkables (library : LibraryHandle) : List Linkable :=
  match library.kind with
  | .named => [.named library.name]
  | kind => library.files.map (.file kind)

/-! ### Adding directives -/

namespace Directive

/-- The directives with those that one thing takes. -/
def addLinkable (directives : List Directive) : Linkable → List Directive
  | .named name => directives ++ [.linkNamed name]
  | .file kind path => addFile kind directives path

theorem addLibrary_eq (directives : List Directive) (library : LibraryHandle) :
    addLibrary directives library = library.linkables.foldl addLinkable directives := by
  unfold addLibrary LibraryHandle.linkables
  cases library.kind with
  | named => rfl
  | shared => rw [List.foldl_map]; rfl
  | static => rw [List.foldl_map]; rfl

/-- One library after the other is one thing after the other. -/
theorem foldl_addLibrary (directives : List Directive) (libraries : List LibraryHandle) :
    libraries.foldl addLibrary directives =
      (libraries.flatMap LibraryHandle.linkables).foldl addLinkable directives := by
  induction libraries generalizing directives with
  | nil => rfl
  | cons library libraries ih =>
      rw [List.foldl_cons, ih, addLibrary_eq, List.flatMap_cons, List.foldl_append]

theorem addOnce_append {front : List Directive} {dir : Path} (h : .search dir ∉ front)
    (directives : List Directive) :
    addOnce (front ++ directives) (.search dir) = front ++ addOnce directives (.search dir) := by
  unfold addOnce
  by_cases hmem : .search dir ∈ directives
  · rw [if_pos hmem, if_pos (List.mem_append_right front hmem)]
  · have hnot : .search dir ∉ front ++ directives := by
      intro hor
      rcases List.mem_append.1 hor with hfront | hdirectives
      · exact h hfront
      · exact hmem hdirectives
    rw [if_neg hmem, if_neg hnot, List.append_assoc]

/-- What stands in front makes no difference if no directory is searched there. -/
theorem foldl_addLinkable_append {front : List Directive} (h : ∀ dir, .search dir ∉ front)
    (directives : List Directive) (items : List Linkable) :
    items.foldl addLinkable (front ++ directives) =
      front ++ items.foldl addLinkable directives := by
  induction items generalizing directives with
  | nil => rfl
  | cons item items ih =>
      rw [List.foldl_cons, List.foldl_cons, ← ih]
      congr 1
      cases item with
      | named name => exact List.append_assoc _ _ _
      | file kind path =>
          show addFile kind (front ++ directives) path = front ++ addFile kind directives path
          cases hdir : path.parent? with
          | none =>
              rw [addFile_of_parent?_none _ _ hdir, addFile_of_parent?_none _ _ hdir,
                List.append_assoc]
          | some dir =>
              rw [addFile_of_parent? _ _ hdir, addFile_of_parent? _ _ hdir,
                addOnce_append (h dir), List.append_assoc]

end Directive

/-! ### How directives come about -/

/-- The directives that come about when `items` are linked after `searched` were searched: at each
step a new directory is searched, or the next item is linked once its directory is searched. -/
inductive Linking (searched : List Path) : List Linkable → List Directive → Prop where
  | start : Linking searched [] (searched.map .search)
  | search {items : List Linkable} {directives : List Directive} {dir : Path} :
      Linking searched items directives → .search dir ∉ directives →
      Linking searched items (directives ++ [.search dir])
  | link {items : List Linkable} {directives : List Directive} {item : Linkable}
      {d : Directive} :
      Linking searched items directives → item.IsSearched directives → item.IsLinkedBy d →
      Linking searched (items ++ [item]) (directives ++ [d])

namespace Linking

variable {searched : List Path} {items : List Linkable} {directives : List Directive}

/-- Searching a directory once, and it is searched. -/
theorem addOnce (h : Linking searched items directives) (dir : Path) :
    Linking searched items (Directive.addOnce directives (.search dir)) ∧
      .search dir ∈ Directive.addOnce directives (.search dir) := by
  unfold Directive.addOnce
  by_cases hmem : .search dir ∈ directives
  · rw [if_pos hmem]
    exact ⟨h, hmem⟩
  · rw [if_neg hmem]
    exact ⟨h.search hmem, by simp⟩

/-- **One thing more.** -/
theorem addLinkable (h : Linking searched items directives) {item : Linkable}
    (hitem : item.CanLink) :
    Linking searched (items ++ [item]) (Directive.addLinkable directives item) := by
  cases item with
  | named name => exact h.link trivial rfl
  | file kind path =>
      obtain ⟨⟨dir, hdir⟩, name, hname⟩ := hitem
      obtain ⟨hlinking, hsearched⟩ := h.addOnce dir
      obtain ⟨d, hlinked⟩ : ∃ d, Directive.linkFile? kind path = some d := by
        rw [Directive.linkFile?, hname]
        exact ⟨_, rfl⟩
      show Linking searched (items ++ [.file kind path]) (Directive.addFile kind directives path)
      rw [Directive.addFile_of_parent? _ _ hdir, hlinked]
      exact hlinking.link ⟨dir, hdir, hsearched⟩ hlinked

/-- **Any number of things.** -/
theorem foldl_addLinkable (h : Linking searched items directives) {more : List Linkable}
    (hmore : ∀ item ∈ more, item.CanLink) :
    Linking searched (items ++ more) (more.foldl Directive.addLinkable directives) := by
  induction more generalizing items directives with
  | nil =>
      rw [List.append_nil]
      exact h
  | cons item more ih =>
      have hstep := h.addLinkable (hmore item List.mem_cons_self)
      have hrest := ih hstep fun other hother => hmore other (List.mem_cons_of_mem item hother)
      rwa [List.append_assoc, List.singleton_append] at hrest

/-! ### What holds of the directives -/

/-- What stands in a list with one more element is that element, or stood there before. -/
theorem append_singleton_eq_append_cons {ds before after : List Directive} {last d : Directive}
    (h : ds ++ [last] = before ++ d :: after) :
    (after = [] ∧ before = ds ∧ d = last) ∨
      ∃ rest, after = rest ++ [last] ∧ ds = before ++ d :: rest := by
  rcases List.eq_nil_or_concat' after with rfl | ⟨rest, e, rfl⟩
  · obtain ⟨hbefore, hlast⟩ := List.append_inj' h rfl
    exact Or.inl ⟨rfl, hbefore.symm, (List.singleton_inj.1 hlast).symm⟩
  · rw [← List.cons_append, ← List.append_assoc] at h
    obtain ⟨hrest, hlast⟩ := List.append_inj' h rfl
    exact Or.inr ⟨rest, by rw [List.singleton_inj.1 hlast], hrest⟩

theorem exists_eq_append (h : Linking searched items directives) :
    ∃ rest, directives = searched.map .search ++ rest := by
  induction h with
  | start => exact ⟨[], by simp⟩
  | search _ _ ih =>
      obtain ⟨rest, rfl⟩ := ih
      exact ⟨rest ++ _, List.append_assoc _ _ _⟩
  | link _ _ _ ih =>
      obtain ⟨rest, rfl⟩ := ih
      exact ⟨rest ++ _, List.append_assoc _ _ _⟩

theorem isSearch_or_isLink (h : Linking searched items directives) :
    ∀ d ∈ directives, d.isSearch = true ∨ d.isLink = true := by
  induction h with
  | start =>
      intro d hd
      obtain ⟨dir, -, rfl⟩ := List.mem_map.1 hd
      exact Or.inl rfl
  | search _ _ ih =>
      intro d hd
      rcases List.mem_append.1 hd with hd | hd
      · exact ih d hd
      · rw [List.mem_singleton.1 hd]
        exact Or.inl rfl
  | link _ _ hlinked ih =>
      intro d hd
      rcases List.mem_append.1 hd with hd | hd
      · exact ih d hd
      · rw [List.mem_singleton.1 hd]
        exact Or.inr (Linkable.isLink_of_isLinkedBy hlinked)

/-- A directory is searched only if it was not. -/
theorem nodup_filter_isSearch (h : Linking searched items directives)
    (hsearched : searched.Nodup) : (directives.filter Directive.isSearch).Nodup := by
  induction h with
  | start =>
      refine List.Nodup.filter _ (hsearched.map ?_)
      intro p q heq
      exact Directive.search.inj heq
  | @search items directives dir _ hnew ih =>
      rw [List.filter_append]
      refine ih.append (List.nodup_singleton _) ?_
      intro d hd hsingle
      rw [List.mem_singleton.1 hsingle] at hd
      exact hnew (List.mem_filter.1 hd).1
  | @link items directives item d _ _ hlinked ih =>
      have hnot : d.isSearch = false := by
        have hlink := Linkable.isLink_of_isLinkedBy hlinked
        cases d <;> first | rfl | cases hlink
      rw [List.filter_append, List.filter_cons_of_neg (by simp [hnot]), List.filter_nil,
        List.append_nil]
      exact ih

/-- No directory is searched by two lines. -/
theorem nodup_searches (h : Linking searched items directives) (hsearched : searched.Nodup) :
    ((directives.filter Directive.isSearch).map Directive.line).Nodup := by
  -- the lines tell the directories apart
  refine (h.nodup_filter_isSearch hsearched).map_on ?_
  intro d hd e he heq
  have hd := (List.mem_filter.1 hd).2
  have he := (List.mem_filter.1 he).2
  cases d with
  | search p =>
      cases e with
      | search q => rw [Directive.line_search_injective heq]
      | _ => cases he
  | _ => cases hd

/-- Everything is linked once, and in its order. -/
theorem forall₂_links (h : Linking searched items directives) :
    List.Forall₂ Linkable.IsLinkedBy items (directives.filter Directive.isLink) := by
  induction h with
  | start =>
      rw [Directive.filter_map_eq_nil fun _ => rfl]
      exact List.Forall₂.nil
  | search _ _ ih =>
      rw [List.filter_append]
      simpa [Directive.isLink, Directive.linked?] using ih
  | link _ _ hlinked ih =>
      have hlink := Linkable.isLink_of_isLinkedBy hlinked
      rw [List.filter_append, List.filter_cons_of_pos hlink, List.filter_nil]
      exact List.rel_append ih (List.Forall₂.cons hlinked List.Forall₂.nil)

/-- What is linked is linked by its name. -/
theorem filterMap_linked? (h : Linking searched items directives) :
    directives.filterMap Directive.linked? = items.filterMap Linkable.linkedName? := by
  induction h with
  | start =>
      rw [List.filterMap_nil, List.filterMap_eq_nil_iff]
      intro d hd
      obtain ⟨dir, -, rfl⟩ := List.mem_map.1 hd
      rfl
  | @search items directives dir _ _ ih =>
      have hnone : [Directive.search dir].filterMap Directive.linked? = [] := rfl
      rw [List.filterMap_append, ih, hnone, List.append_nil]
  | link _ _ hlinked ih =>
      rw [List.filterMap_append, List.filterMap_append, ih, List.filterMap_cons,
        List.filterMap_cons, Linkable.linked?_of_isLinkedBy hlinked]
      rfl

/-- Each file is linked as what it was taken for. -/
theorem forall₂_fileLinks (h : Linking searched items directives) :
    List.Forall₂ (fun file d => Directive.linkFile? file.1 file.2 = some d)
      (items.filterMap Linkable.file?) (directives.filter Directive.isFileLink) := by
  induction h with
  | start =>
      rw [Directive.filter_map_eq_nil fun _ => rfl]
      exact List.Forall₂.nil
  | search _ _ ih =>
      rw [List.filter_append]
      simpa [Directive.isFileLink] using ih
  | @link items directives item d _ _ hlinked ih =>
      rw [List.filterMap_append, List.filter_append]
      cases item with
      | named name =>
          cases hlinked
          have hfile : [Linkable.named name].filterMap Linkable.file? = [] := rfl
          have hlink : [Directive.linkNamed name].filter Directive.isFileLink = [] := rfl
          rw [hfile, hlink, List.append_nil, List.append_nil]
          exact ih
      | file kind path =>
          have hlink := (Directive.isLink_of_linkFile? hlinked).2
          rw [List.filter_cons_of_pos hlink, List.filter_nil]
          exact List.rel_append ih (List.Forall₂.cons hlinked List.Forall₂.nil)

/-- What is linked has its directory searched before. -/
theorem exists_isSearched (h : Linking searched items directives) {before after : List Directive}
    {d : Directive} (heq : directives = before ++ d :: after) (hd : d.isLink = true) :
    ∃ item, items[(before.filter Directive.isLink).length]? = some item ∧
      item.IsLinkedBy d ∧ item.IsSearched before := by
  induction h generalizing after with
  | start =>
      have hmem : d ∈ searched.map Directive.search := by
        rw [heq]
        exact List.mem_append_right before List.mem_cons_self
      obtain ⟨dir, -, rfl⟩ := List.mem_map.1 hmem
      cases hd
  | search _ _ ih =>
      rcases append_singleton_eq_append_cons heq with ⟨-, -, rfl⟩ | ⟨rest, -, hrest⟩
      · cases hd
      · exact ih hrest
  | @link items directives item last hlinking hsearched hlinked ih =>
      rcases append_singleton_eq_append_cons heq with ⟨-, rfl, rfl⟩ | ⟨rest, -, hrest⟩
      · -- as many were linked before as there were items, so this is the next one
        have hlength := hlinking.forall₂_links.length_eq
        exact ⟨item, by rw [← hlength, List.getElem?_concat_length], hlinked, hsearched⟩
      · obtain ⟨other, hother, hresult⟩ := ih hrest
        have hlt := (List.getElem?_eq_some_iff.1 hother).1
        exact ⟨other, by rw [List.getElem?_append_left hlt, hother], hresult⟩

end Linking

namespace Artifact

/-- The things to be linked for an artifact. -/
def linkables (a : Artifact) : List Linkable := a.libraries.flatMap LibraryHandle.linkables

/-- The directives of an artifact are those that watch, those that come about as its libraries are
linked, and one for each entry of the search path. -/
theorem exists_linking {a : Artifact} (hitems : ∀ item ∈ a.linkables, item.CanLink) :
    ∃ links, Linking a.linkDirs a.linkables links ∧
      a.directives = a.units.map (fun unit => .watch unit.path) ++ links ++
        (a.runtimePath.elim [] fun r => r.entries.map fun entry =>
          .linkerArg ("-Wl,-rpath," ++ entry)) := by
  have hwatched : ∀ dir, .search dir ∉ a.units.map fun unit => Directive.watch unit.path := by
    intro dir hmem
    obtain ⟨unit, -, hunit⟩ := List.mem_map.1 hmem
    cases hunit
  have hstart : Linking a.linkDirs [] (a.linkDirs.map .search) := Linking.start
  have hlinking := hstart.foldl_addLinkable hitems
  refine ⟨_, hlinking, ?_⟩
  rw [directives, Directive.foldl_addLibrary, Directive.foldl_addLinkable_append hwatched]
  cases a.runtimePath with
  | none => rfl
  | some r =>
      show _ ++ r.linkerArgs.map Directive.linkerArg = _
      rw [RuntimePath.linkerArgs, List.map_map]
      rfl

/-- Each file of an artifact is linked as what it was taken for. -/
theorem forall₂_fileLinks {a : Artifact} (hitems : ∀ item ∈ a.linkables, item.CanLink) :
    List.Forall₂ (fun file d => Directive.linkFile? file.1 file.2 = some d)
      (a.linkables.filterMap Linkable.file?) (a.directives.filter Directive.isFileLink) := by
  obtain ⟨links, hlinking, hdirectives⟩ := exists_linking hitems
  -- what watches and what embeds links no file
  have hlinks : a.directives.filter Directive.isFileLink = links.filter Directive.isFileLink := by
    rw [hdirectives, List.filter_append, List.filter_append,
      Directive.filter_map_eq_nil fun _ => rfl, List.nil_append]
    cases a.runtimePath with
    | none => exact List.append_nil _
    | some r =>
        rw [Option.elim_some, Directive.filter_map_eq_nil fun _ => rfl, List.append_nil]
  rw [hlinks]
  exact hlinking.forall₂_fileLinks

end Artifact

end ExtensionPlan
