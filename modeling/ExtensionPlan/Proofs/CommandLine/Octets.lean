import ExtensionPlan.Proofs.CommandLine.Overrides
import ExtensionPlan.Proofs.Path.Octets
import ExtensionPlan.Proofs.Plan.Directives

/-!
# ExtensionPlan.Proofs.CommandLine.Octets

**Overrides that are no text.** An argument of a command line may be any octets, and so may the
value of a variable. An argument that is a path is taken as it is. Variables are read as texts, and
one that is no text counts as unset. So overrides are variables as far as their paths are texts
(`Overrides.result_apply_eq_read_overlayOctets`), and no further
(`Sample.result_apply_ne_read_overlayOctets`).

Applying overrides looks at no path (`Overrides.result_apply_map`), and the octets that are said of
a setting are those of the text (`Overrides.octets?_map_ofPath`). So all rests on what holds for
texts.
-/

namespace ExtensionPlan

/-- The octets of a text. -/
def octetsOf (text : String) : List UInt8 := Text.Utf8.encode text.toList

theorem text?_octetsOf (text : String) : Text.Utf8.text? (octetsOf text) = some text := by
  rw [octetsOf, Text.Utf8.text?_encode, String.ofList_toList]

/-- The surroundings with these variables of the process. Those that are no text are not seen. -/
def World.withOctets (w : World) (env : String → Option (List UInt8)) : World :=
  w.withProcess fun name => (env name).bind Text.Utf8.text?

theorem Configuration.map_setAot {π ρ : Type} (f : π → ρ) (c : Configuration π)
    (text : Option String) :
    (c.map f).setAot text = (c.setAot text).map (Configuration.map f) := by
  unfold setAot
  cases h : c.strictToggles with
  | true => cases Toggle.parseStrict Setting.aot.key text <;> simp [map, h, Except.map]
  | false => simp [map, h, Except.map]

namespace CommandLine.Overrides

/-! ### The form of paths -/

theorem given_map {π ρ : Type} (f : π → ρ) (o : Overrides π) (c : Configuration π) :
    (o.map f).given (c.map f) = (o.given c).map f := by
  simp [given, map, Configuration.map, Option.map_or, Option.getD_map]

/-- Applying overrides does not depend on the form that paths have. -/
theorem result_apply_map {π ρ : Type} (f : π → ρ) (o : Overrides π) (c : Configuration π)
    (w : World) :
    ((o.map f).apply (c.map f) w).result = (o.apply c w).result.map (Configuration.map f) := by
  rw [apply, apply, given_map]
  generalize o.given c = d
  -- the rest looks at toggles only, which are the same in both forms
  have hrecheck : ((o.map f).strictToggles && !(d.map f).strictToggles) =
      (o.strictToggles && !d.strictToggles) := rfl
  have haot : (o.map f).aot = o.aot := rfl
  unfold toggle
  rw [hrecheck, haot]
  cases o.aot with
  | some text =>
      cases o.strictToggles && !d.strictToggles with
      | true => exact Configuration.map_setAot f { d with strictToggles := true } (some text)
      | false => exact Configuration.map_setAot f d (some text)
  | none =>
      cases o.strictToggles && !d.strictToggles with
      | true =>
          simp only [if_true, bind_pure, Option.isSome_none, Bool.false_eq_true, if_false]
          exact Configuration.map_setAot f { d with strictToggles := true } _
      | false => rfl

theorem paths_map {π ρ : Type} (f : π → ρ) (o : Overrides π) :
    (o.map f).paths = o.paths.map f := by
  show ([o.sourceDir, o.python, o.manifest, o.cudaHome].map (Option.map f)).filterMap id = _
  rw [List.filterMap_map, paths, List.map_filterMap]
  rfl

/-- Overrides whose paths are texts are overrides by these texts. -/
theorem exists_eq_map_ofPath {o : Overrides OctetPath} (h : ∀ p ∈ o.paths, p.IsText) :
    ∃ texts : Overrides, o = texts.map OctetPath.ofPath := by
  have hgiven : ∀ given ∈ [o.sourceDir, o.python, o.manifest, o.cudaHome],
      ∃ text : Option Path, given = text.map OctetPath.ofPath := by
    intro given hmem
    cases given with
    | none => exact ⟨none, rfl⟩
    | some p =>
        obtain ⟨q, rfl⟩ := h p (List.mem_filterMap.2 ⟨some p, hmem, rfl⟩)
        exact ⟨some q, rfl⟩
  obtain ⟨sourceDir, hsourceDir⟩ := hgiven o.sourceDir (by simp)
  obtain ⟨python, hpython⟩ := hgiven o.python (by simp)
  obtain ⟨manifest, hmanifest⟩ := hgiven o.manifest (by simp)
  obtain ⟨cudaHome, hcudaHome⟩ := hgiven o.cudaHome (by simp)
  refine ⟨⟨sourceDir, python, o.aot, o.locator, manifest, cudaHome, o.strictToggles⟩, ?_⟩
  rw [map, ← hsourceDir, ← hpython, ← hmanifest, ← hcudaHome]

/-! ### The environment that says the same -/

/-- What the variables of overridden settings would be as octets. -/
def octets? (o : Overrides OctetPath) : String → Setting → Option (List UInt8) :=
  o.said? OctetPath.octets octetsOf

/-- The variables with those of overridden settings set to what overrides them. -/
def overlayOctets (o : Overrides OctetPath) (locator : String)
    (env : String → Option (List UInt8)) : String → Option (List UInt8) :=
  overlaid (o.octets? locator) env

theorem octets?_map_ofPath (o : Overrides) (locator : String) (s : Setting) :
    (o.map OctetPath.ofPath).octets? locator s = (o.text? locator s).map octetsOf := by
  have hpath : OctetPath.octets ∘ OctetPath.ofPath = octetsOf ∘ Path.text := by
    funext p
    simp [octetsOf, OctetPath.ofPath, Path.text]
  cases s <;> simp [octets?, text?, said?, map, hpath, Function.comp_def]
  rfl

/-- What is set to a text is read as that text. -/
theorem process_withOctets_overlayOctets (o : Overrides) (locator : String) (w : World)
    (env : String → Option (List UInt8)) :
    w.withOctets ((o.map OctetPath.ofPath).overlayOctets locator env) =
      (w.withOctets env).withProcess (o.overlay locator (w.withOctets env).process) := by
  have hoverlay : (fun name => ((o.map OctetPath.ofPath).overlayOctets locator env name).bind
      Text.Utf8.text?) = o.overlay locator fun name => (env name).bind Text.Utf8.text? := by
    funext name
    rw [overlayOctets, overlay, overlaid, overlaid]
    cases hs : Setting.all.find? (·.key == name) with
    | none => rfl
    | some s =>
        rw [Option.bind_some, Option.bind_some, octets?_map_ofPath]
        cases o.text? locator s with
        | none => rfl
        | some text => exact text?_octetsOf text
  exact congrArg w.withProcess hoverlay

/-- The overrides can be said by variables that are texts, the kind of locator by this name. No path
among them is empty, since an empty variable would count as unset. -/
structure SpelledAsTexts (o : Overrides OctetPath) (locator : String) : Prop where
  text : ∀ p ∈ o.paths, p.IsText
  filled : ∀ p ∈ o.paths, p.octets ≠ []
  locator : ∀ kind ∈ o.locator, LocatorKind.parse locator = .ok kind

theorem SpelledAsTexts.spelledWith {o : Overrides} {locator : String}
    (h : (o.map OctetPath.ofPath).SpelledAsTexts locator) : o.SpelledWith locator := by
  refine ⟨fun p hp => ?_, h.locator⟩
  have hmem : OctetPath.ofPath p ∈ (o.map OctetPath.ofPath).paths := by
    rw [paths_map]
    exact List.mem_map_of_mem hp
  refine Bool.eq_false_iff.2 fun hempty => h.filled _ hmem ?_
  rw [Path.isEmpty, List.isEmpty_iff] at hempty
  rw [OctetPath.ofPath, hempty]
  rfl

/-- **Overrides are variables.** A configuration that was read and then overridden by paths that are
texts is the one that is read from the variables with the overridden ones set to what overrides
them, toggles being strict if that is asked for; and where one is refused, the other is refused for
the same reason. Variables may be any octets. -/
theorem result_apply_eq_read_overlayOctets {o : Overrides OctetPath} {locator : String}
    (h : o.SpelledAsTexts locator) {w : World} {env : String → Option (List UInt8)}
    {c : Configuration} (hc : (Configuration.read .process (w.withOctets env)).result = .ok c) :
    (o.apply (c.map .ofPath) (w.withOctets env)).result =
      (Configuration.read .process (w.withOctets (o.overlayOctets locator env))).result.map
        (Configuration.map .ofPath) := by
  obtain ⟨texts, rfl⟩ := exists_eq_map_ofPath h.text
  rw [result_apply_map, process_withOctets_overlayOctets,
    result_apply_eq_read_overlay h.spelledWith hc]

end CommandLine.Overrides

namespace Sample

open CommandLine (Overrides)

/-- Variables that name the sources and a kernel toggle that is not understood. The toolkit's
variable is no text. -/
def unclearVariables (name : String) : Option (List UInt8) :=
  [("EXT_SOURCE_DIR", octetsOf "/s"), ("EXT_LOCATOR", octetsOf "env"),
    ("TRITON_DIST_AOT", octetsOf "maybe"), ("CUDA_HOME", [0xFF])].lookup name

/-- Overrides that make toggles strict. -/
def strictOverrides : Overrides OctetPath :=
  { Overrides.empty.map .ofPath with
    python := some (.ofPath "/p")
    locator := some .interpreter
    strictToggles := true }

/-- Overrides that make toggles strict and set the kernel toggle. -/
def clearOverrides : Overrides OctetPath := { strictOverrides with aot := some "ON" }

theorem spelledAsTexts_strictOverrides : strictOverrides.SpelledAsTexts " Python" := by
  have hpaths : strictOverrides.paths = [.ofPath "/p"] := by decide
  refine ⟨?_, ?_, ?_⟩
  · rw [hpaths]
    rintro p hp
    exact ⟨"/p", List.mem_singleton.1 hp⟩
  · rw [hpaths]
    decide
  · rintro kind hkind
    cases Option.mem_some.1 hkind
    decide

/-- The toggle is read leniently and refused by the overrides, as it is refused where the
environment itself asks for strictness. Where the overrides set it as well, both ways lead to one
configuration. -/
theorem result_apply_eq_read_overlayOctets_sample :
    strictOverrides.SpelledAsTexts " Python" ∧ clearOverrides.SpelledAsTexts " Python" ∧
    ∃ c, (Configuration.read .process (world.withOctets unclearVariables)).result = .ok c ∧
      (strictOverrides.apply (c.map .ofPath) (world.withOctets unclearVariables)).result =
        (Configuration.read .process (world.withOctets
          (strictOverrides.overlayOctets " Python" unclearVariables))).result.map
            (Configuration.map .ofPath) ∧
      (strictOverrides.apply (c.map .ofPath) (world.withOctets unclearVariables)).result =
        .error (.rejected "TRITON_DIST_AOT" "maybe" .notToggle) ∧
      (clearOverrides.apply (c.map .ofPath) (world.withOctets unclearVariables)).result =
        (Configuration.read .process (world.withOctets
          (clearOverrides.overlayOctets " Python" unclearVariables))).result.map
            (Configuration.map .ofPath) ∧
      (clearOverrides.apply (c.map .ofPath) (world.withOctets unclearVariables)).result =
        .ok (Configuration.map .ofPath { Configuration.ofSourceDir "/s" .process with
          python := some "/p", aot := .enabled, strictToggles := true }) := by
  have hstrict := spelledAsTexts_strictOverrides
  have hclear : clearOverrides.SpelledAsTexts " Python" :=
    ⟨hstrict.text, hstrict.filled, hstrict.locator⟩
  have hread : (Configuration.read .process
      (world.withOctets unclearVariables)).result.toOption.isSome = true := by
    decide +kernel
  obtain ⟨c, hc⟩ := Option.isSome_iff_exists.1 hread
  have hc := toOption_eq_some_iff.1 hc
  have hrefused := Overrides.result_apply_eq_read_overlayOctets hstrict hc
  have hset := Overrides.result_apply_eq_read_overlayOctets hclear hc
  exact ⟨hstrict, hclear, c, hc, hrefused, hrefused.trans (by rfl), hset,
    hset.trans (by rfl)⟩

/-- A manifest whose path is no text. -/
def strayManifest : OctetPath := ⟨[0x2F, 0x6D, 0xFF]⟩

/-- Overrides that name it. -/
def strayOverrides : Overrides OctetPath :=
  { Overrides.empty.map .ofPath with manifest := some strayManifest }

/-- **Overrides are not always variables.** The manifest that an argument names is taken as it is,
while a variable that names it counts as unset, since it is no text. -/
theorem result_apply_ne_read_overlayOctets :
    (∀ p ∈ strayOverrides.paths, p.octets ≠ []) ∧
    ∃ c, (Configuration.read .process (world.withOctets unclearVariables)).result = .ok c ∧
      (strayOverrides.apply (c.map .ofPath) (world.withOctets unclearVariables)).result =
        .ok { c.map .ofPath with manifest := some strayManifest } ∧
      (Configuration.read .process (world.withOctets
        (strayOverrides.overlayOctets "env" unclearVariables))).result = .ok c ∧
      (strayOverrides.apply (c.map .ofPath) (world.withOctets unclearVariables)).result ≠
        (Configuration.read .process (world.withOctets
          (strayOverrides.overlayOctets "env" unclearVariables))).result.map
            (Configuration.map .ofPath) := by
  refine ⟨by decide, { Configuration.ofSourceDir "/s" .process with locator := .environment },
    ?_, ?_, ?_, ?_⟩
  · decide +kernel
  · decide +kernel
  · decide +kernel
  · decide +kernel

end Sample

end ExtensionPlan
