import ExtensionPlan.Description
import ExtensionPlan.Proofs.Json
import Mathlib.Logic.Function.Basic

/-!
# ExtensionPlan.Proofs.Description

**Nothing is lost in a description.** The text of an artifact, spread out or on one line, tells the
artifact from every other (`Artifact.description_faithful`), whatever is written in its names, paths
and flags. It takes two steps. The text gives its document back (`Json.read_write`), and the
document tells the artifact, since each record writes all of its parts (`document_injective`).

What may be missing is written as `null`, so that the document of what is there must be another.
-/

namespace ExtensionPlan

open Function (Injective)

namespace Json

/-! ### One text for a document -/

theorem read_compact (v : Json) : read v.compact.toList = some v := by
  have hread := read_write Layout.isBlank_compact v 0 [] nofun
  rwa [List.append_nil, ← String.toList_ofList (l := v.write .compact 0)] at hread

theorem read_pretty (v : Json) : read v.pretty.toList = some v := by
  have hread := read_write Layout.isBlank_pretty v 0 [] nofun
  rwa [List.append_nil, ← String.toList_ofList (l := v.write .pretty 0)] at hread

/-- Documents of one text on one line are one document. -/
theorem compact_injective : Injective compact := by
  intro v u h
  rw [← Option.some.injEq, ← read_compact v, h, read_compact u]

/-- Documents of one text spread over lines are one document. -/
theorem pretty_injective : Injective pretty := by
  intro v u h
  rw [← Option.some.injEq, ← read_pretty v, h, read_pretty u]

/-! ### Documents of parts -/

section

variable {α : Type} {document : α → Json}

theorem listMap_injective (h : Injective document) :
    Injective fun xs : List α => Json.list (xs.map document) := by
  intro xs ys heq
  exact h.list_map (Json.list.inj heq)

theorem ofOption_injective (h : Injective document) (hnull : ∀ a, document a ≠ .null) :
    Injective (ofOption document) := by
  intro x y heq
  cases x with
  | none =>
      cases y with
      | none => rfl
      | some b => exact absurd heq.symm (hnull b)
  | some a =>
      cases y with
      | none => exact absurd heq (hnull a)
      | some b => rw [h heq]

end

theorem ofTexts_injective : Injective ofTexts :=
  listMap_injective fun _ _ => Json.text.inj

theorem ofPaths_injective : Injective ofPaths := by
  intro ps qs h
  exact List.map_injective_iff.2 (fun _ _ => Path.text_injective) (ofTexts_injective h)

end Json

/-! ### Documents of records -/

theorem UnitKind.name_injective : Injective UnitKind.name := by
  intro k l
  cases k <;> cases l <;> decide

theorem LinkKind.name_injective : Injective LinkKind.name := by
  intro k l
  cases k <;> cases l <;> decide

theorem FlagSet.document_injective : Injective FlagSet.document := by
  intro s t h
  cases s
  cases t
  cases Json.ofTexts_injective h
  rfl

theorem CompilationUnit.document_injective : Injective CompilationUnit.document := by
  intro u v h
  simp only [document, Json.object.injEq, List.cons.injEq, Prod.mk.injEq, Json.text.injEq,
    true_and, and_true] at h
  obtain ⟨hpath, hkind⟩ := h
  cases u
  cases v
  cases Path.text_injective hpath
  cases UnitKind.name_injective hkind
  rfl

theorem IncludeRule.document_injective : Injective IncludeRule.document := by
  intro r s h
  simp only [document, Json.object.injEq, List.cons.injEq, Prod.mk.injEq, true_and, and_true] at h
  cases r
  cases s
  cases Json.ofPaths_injective h
  rfl

theorem LibraryHandle.document_injective : Injective LibraryHandle.document := by
  intro l m h
  simp only [document, Json.object.injEq, List.cons.injEq, Prod.mk.injEq, Json.text.injEq,
    true_and, and_true] at h
  obtain ⟨hname, hkind, hfiles⟩ := h
  cases l
  cases m
  cases hname
  cases LinkKind.name_injective hkind
  cases Json.ofPaths_injective hfiles
  rfl

theorem RuntimePath.document_injective : Injective RuntimePath.document := by
  intro r s h
  simp only [document, Json.object.injEq, List.cons.injEq, Prod.mk.injEq, true_and, and_true] at h
  obtain ⟨hrelative, habsolute⟩ := h
  cases r
  cases s
  cases Json.ofTexts_injective hrelative
  cases Json.ofPaths_injective habsolute
  rfl

/-- The documents of two artifacts differ if the artifacts do. -/
theorem Artifact.document_injective : Injective Artifact.document := by
  intro a b h
  simp only [document, Json.object.injEq, List.cons.injEq, Prod.mk.injEq, Json.text.injEq,
    true_and, and_true] at h
  obtain ⟨hname, hfilename, hunits, hrules, hincludes, hflags, hlibraries, hdirs, hpath⟩ := h
  have hunits := Json.listMap_injective CompilationUnit.document_injective hunits
  have hrules := Json.listMap_injective IncludeRule.document_injective hrules
  have hlibraries := Json.listMap_injective LibraryHandle.document_injective hlibraries
  have hpath := Json.ofOption_injective RuntimePath.document_injective (fun r => nofun) hpath
  cases a
  cases b
  cases hname
  cases hfilename
  cases hunits
  cases hrules
  cases Json.ofPaths_injective hincludes
  cases FlagSet.document_injective hflags
  cases hlibraries
  cases Json.ofPaths_injective hdirs
  cases hpath
  rfl

/-- **Nothing is lost in a description.** Two artifacts have the same text, spread out or on one
line, only if they are the same in every field, and both texts of an artifact are one document. -/
theorem Artifact.description_faithful (a b : Artifact) :
    (a.document.pretty = b.document.pretty ↔ a = b) ∧
    (a.document.compact = b.document.compact ↔ a = b) ∧
    Json.read a.document.pretty.toList = some a.document ∧
    Json.read a.document.compact.toList = some a.document := by
  refine ⟨?_, ?_, Json.read_pretty _, Json.read_compact _⟩
  · rw [Json.pretty_injective.eq_iff, Artifact.document_injective.eq_iff]
  · rw [Json.compact_injective.eq_iff, Artifact.document_injective.eq_iff]

end ExtensionPlan
