import ExtensionPlan.CommandLine.Response
import ExtensionPlan.Proofs.Configuration.Reading
import ExtensionPlan.Proofs.World.Variables

/-!
# ExtensionPlan.Proofs.CommandLine.Overrides

**Two ways to set a setting.** An override is put into a configuration that was read already, and
the kernel toggle is then read again where that makes a difference. The outcome is the one that a
variable of the same text would have had (`Overrides.result_apply_eq_read_overlay`), up to the
reason of a refusal.

`Overrides.result_apply` says what overriding does to a configuration that was just read, in one
equation for all combinations of strict and lenient toggles; on the other side, each of the four
steps of reading is followed through `Overrides.overlay`.
-/

namespace ExtensionPlan

namespace Setting

theorem find?_key (s : Setting) : all.find? (·.key == s.key) = some s := by
  cases s <;> decide

/-- Every setting has a variable of its own. -/
theorem key_injective {s t : Setting} (h : s.key = t.key) : s = t := by
  have hfound := find?_key s
  rw [h, find?_key t] at hfound
  exact (Option.some.inj hfound).symm

end Setting

namespace CommandLine.Overrides

open ExtensionPlan.Configuration (readSourceDir readParsed toggleOf ofParts)

/-! ### Applying overrides -/

/-- The configuration with all overrides but that of the kernel toggle. -/
def patch (o : Overrides) (c : Configuration) : Configuration :=
  { o.given c with strictToggles := c.strictToggles || o.strictToggles }

/-- If the kernel toggle of a configuration is the one that the environment sets, overriding sets it
anew, from the text and as strictly as both together ask for. -/
theorem result_apply (o : Overrides) {c : Configuration} {w : World}
    (hc : toggleOf c.strictToggles (w.value? c.reader Setting.aot.key) = .ok c.aot) :
    (o.apply c w).result =
      (toggleOf (c.strictToggles || o.strictToggles)
        (o.aot <|> w.value? c.reader Setting.aot.key)).map fun aot =>
          { o.patch c with aot := aot } := by
  unfold apply toggle
  cases haot : o.aot with
  | some text =>
      -- the text that is given is read last, whatever was read before
      cases hstrict : c.strictToggles <;> cases hflag : o.strictToggles <;>
        simp [hstrict, hflag, patch, given, Configuration.setAot_eq]
  | none =>
      cases hstrict : c.strictToggles with
      | true =>
          rw [hstrict] at hc
          simp [hstrict, hc, patch, given, Except.map]
      | false =>
          rw [hstrict] at hc
          cases hflag : o.strictToggles with
          | true => simp [hstrict, hflag, patch, given, Configuration.setAot_eq, ok_bind]
          | false => simp [hstrict, hflag, hc, patch, given, Except.map]

/-- A configuration that was just read has the kernel toggle of the environment. -/
theorem result_apply_ofParts (o : Overrides) {w : World} {dir : Path} {strict : Bool} {aot : Toggle}
    {kind : LocatorKind} (h : toggleOf strict (w.process Setting.aot.key) = .ok aot) :
    (o.apply (ofParts .process w dir strict aot kind) w).result =
      (toggleOf (strict || o.strictToggles) (o.aot <|> w.process Setting.aot.key)).map fun toggle =>
        { o.patch (ofParts .process w dir strict aot kind) with aot := toggle } :=
  result_apply o h

/-! ### The environment that says the same -/

/-- What the variables of overridden settings would be, paths and words being written in these ways.
The kind of locator has more than one name, and `locator` is the one that is used. -/
def said? {π β : Type} (path : π → β) (word : String → β) (o : Overrides π) (locator : String) :
    Setting → Option β
  | .sourceDir => o.sourceDir.map path
  | .python => o.python.map path
  | .aot => o.aot.map word
  | .locator => o.locator.map fun _ => word locator
  | .manifest => o.manifest.map path
  | .cudaHome => o.cudaHome.map path
  | .strictToggles => if o.strictToggles then some (word "1") else none
  | _ => none

/-- What the variables of overridden settings would be as texts. -/
def text? (o : Overrides) : String → Setting → Option String := o.said? Path.text id

/-- The variables with those of some settings set to what is said of them. -/
def overlaid {β : Type} (said : Setting → Option β) (env : String → Option β) (name : String) :
    Option β :=
  (Setting.all.find? (·.key == name)).bind said <|> env name

/-- The variables with those of overridden settings set to what overrides them. -/
def overlay (o : Overrides) (locator : String) (env : String → Option String) :
    String → Option String := overlaid (o.text? locator) env

/-- The paths among the overrides. -/
def paths {π : Type} (o : Overrides π) : List π :=
  [o.sourceDir, o.python, o.manifest, o.cudaHome].filterMap id

theorem overlay_key (o : Overrides) (locator : String) (env : String → Option String)
    (s : Setting) : o.overlay locator env s.key = (o.text? locator s <|> env s.key) := by
  rw [overlay, overlaid, Setting.find?_key]
  rfl

theorem overlay_of_ne {o : Overrides} {locator : String} {env : String → Option String}
    {name : String} (h : ∀ s : Setting, s.key ≠ name) :
    o.overlay locator env name = env name := by
  have hfind : Setting.all.find? (·.key == name) = none := by
    simp [h]
  rw [overlay, overlaid, hfind]
  rfl

/-- The overrides can be said by variables, the kind of locator by this name. No path among them is
empty, since an empty variable would count as unset. -/
structure SpelledWith (o : Overrides) (locator : String) : Prop where
  path : ∀ p ∈ o.paths, p.isEmpty = false
  locator : ∀ kind ∈ o.locator, LocatorKind.parse locator = .ok kind

theorem SpelledWith.ne_empty {o : Overrides} {locator : String} (h : o.SpelledWith locator)
    {s : Setting} (hs : s ≠ .aot) {text : String} (htext : o.text? locator s = some text) :
    text ≠ "" := by
  have hpath : ∀ given : Option Path, given ∈ [o.sourceDir, o.python, o.manifest, o.cudaHome] →
      given.map Path.text = some text → text ≠ "" := by
    intro given hgiven hmap
    obtain ⟨p, rfl, rfl⟩ := Option.map_eq_some_iff.1 hmap
    have hfilled := h.path p (List.mem_filterMap.2 ⟨some p, hgiven, rfl⟩)
    intro hempty
    rw [Path.text_injective (hempty : p.text = Path.text "")] at hfilled
    cases hfilled
  cases s with
  | sourceDir => exact hpath o.sourceDir (by simp) htext
  | python => exact hpath o.python (by simp) htext
  | manifest => exact hpath o.manifest (by simp) htext
  | cudaHome => exact hpath o.cudaHome (by simp) htext
  | aot => exact absurd rfl hs
  | locator =>
      obtain ⟨kind, hkind, rfl⟩ := Option.map_eq_some_iff.1 htext
      rintro rfl
      have hparse := h.locator kind hkind
      revert hparse
      cases kind <;> decide
  | strictToggles =>
      simp only [text?, said?] at htext
      split at htext
      · cases htext
        decide
      · cases htext
  | bindingsDirName | kernelFile | sourceExtension | moduleName | archive | archiveDirs | flags =>
      cases htext

/-- Where the variables say what overrides them, that is what is read. -/
theorem filled?_overlay {o : Overrides} {locator : String} (h : o.SpelledWith locator) (w : World)
    {s : Setting} (hs : s ≠ .aot) :
    (w.withProcess (o.overlay locator w.process)).filled? .process s.key =
      (o.text? locator s <|> w.filled? .process s.key) := by
  show (o.overlay locator w.process s.key).filter (· ≠ "") = _
  rw [overlay_key]
  cases htext : o.text? locator s with
  | none => rfl
  | some text => exact Option.filter_some_pos (by simpa using h.ne_empty hs htext)

section

variable {o : Overrides} {locator : String} (h : o.SpelledWith locator) {w : World}

include h

theorem result_readSourceDir_overlay {dir : Path}
    (hdir : (readSourceDir .process w).result = .ok dir) :
    (readSourceDir .process (w.withProcess (o.overlay locator w.process))).result =
      .ok (o.sourceDir.getD dir) := by
  rw [Configuration.result_readSourceDir, filled?_overlay h w (by decide)]
  cases hgiven : o.sourceDir with
  | none =>
      rw [Configuration.result_readSourceDir] at hdir
      simpa [text?, said?, hgiven] using hdir
  | some p => simp [text?, said?, hgiven]

/-- What is read is what the overriding text says, or what was read before. -/
theorem result_readParsed_overlay {s : Setting} (hs : s ≠ .aot) {α : Type}
    (parse : String → Except PlanError α) (unset : α) :
    (readParsed .process s parse unset (w.withProcess (o.overlay locator w.process))).result =
      (o.text? locator s).elim (readParsed .process s parse unset w).result parse := by
  rw [Configuration.result_readParsed, filled?_overlay h w hs, Configuration.result_readParsed]
  cases o.text? locator s with
  | none => rfl
  | some text => rfl

theorem result_readStrict_overlay {strict : Bool}
    (hstrict : (readParsed .process .strictToggles (parseBoolean .strictToggles) false w).result =
      .ok strict) :
    (readParsed .process .strictToggles (parseBoolean .strictToggles) false
      (w.withProcess (o.overlay locator w.process))).result = .ok (strict || o.strictToggles) := by
  rw [result_readParsed_overlay h (by decide), hstrict]
  cases hflag : o.strictToggles with
  | false => simp [text?, said?, hflag]
  | true =>
      have hone : parseBoolean .strictToggles "1" = .ok true := by decide
      simp [text?, said?, hflag, hone]

theorem result_readLocator_overlay {kind : LocatorKind}
    (hkind : (readParsed .process .locator LocatorKind.parse .interpreter w).result = .ok kind) :
    (readParsed .process .locator LocatorKind.parse .interpreter
      (w.withProcess (o.overlay locator w.process))).result = .ok (o.locator.getD kind) := by
  rw [result_readParsed_overlay h (by decide), hkind]
  cases hgiven : o.locator with
  | none => simp [text?, said?, hgiven]
  | some given => simpa [text?, said?, hgiven] using h.locator given hgiven

/-- What is taken over as it stands is overridden where the variables say so. -/
theorem ofParts_overlay (dir : Path) (strict : Bool) (aot aot' : Toggle) (kind : LocatorKind) :
    ofParts .process (w.withProcess (o.overlay locator w.process)) (o.sourceDir.getD dir)
        (strict || o.strictToggles) aot (o.locator.getD kind) =
      { o.patch (ofParts .process w dir strict aot' kind) with aot := aot } := by
  have hcuda : (w.withProcess (o.overlay locator w.process)).filled? .process "CUDA_PATH" =
      w.filled? .process "CUDA_PATH" := by
    show (o.overlay locator w.process "CUDA_PATH").filter (· ≠ "") = _
    rw [overlay_of_ne fun s => by cases s <;> decide]
    rfl
  have hpath : ∀ (given : Option Path) (text : Option String),
      ((given.map Path.text).or text).map Path.ofString = given.or (text.map Path.ofString) := by
    intro given text
    cases given <;> simp
  simp [ofParts, patch, given, hcuda, filled?_overlay h w, text?, said?, hpath, Option.or_assoc]

end

/-- A configuration that was read and then overridden is the one that is read from the variables
with the overridden ones set to what overrides them, toggles being strict if that is asked for; and
where one is refused, the other is refused for the same reason. -/
theorem result_apply_eq_read_overlay {o : Overrides} {locator : String}
    (h : o.SpelledWith locator) {w : World} {c : Configuration}
    (hc : (Configuration.read .process w).result = .ok c) :
    (o.apply c w).result =
      (Configuration.read .process (w.withProcess (o.overlay locator w.process))).result := by
  obtain ⟨dir, hdir, strict, hstrict, aot, haot, kind, hkind, rfl⟩ :=
    Configuration.read_eq_ok_iff.1 hc
  have htext : (w.withProcess (o.overlay locator w.process)).value? .process Setting.aot.key =
      (o.aot <|> w.process Setting.aot.key) := by
    show o.overlay locator w.process Setting.aot.key = _
    rw [overlay_key, text?, said?, Option.map_id_fun, id]
  rw [result_apply_ofParts o haot, Configuration.result_read, result_readSourceDir_overlay h hdir,
    ok_bind, result_readStrict_overlay h hstrict, ok_bind, htext,
    result_readLocator_overlay h hkind]
  simp only [ok_bind, ofParts_overlay h dir strict _ aot kind]
  rfl

end CommandLine.Overrides

end ExtensionPlan
