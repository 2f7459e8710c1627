import ExtensionPlan.Proofs.CommandLine.Overrides
import ExtensionPlan.Proofs.Description
import ExtensionPlan.Proofs.Json.Lines
import ExtensionPlan.Proofs.Plan.Announcement
import ExtensionPlan.Proofs.Plan.ReadBack
import ExtensionPlan.Proofs.Plan.Silence

/-!
# ExtensionPlan.Proofs.CommandLine.Output

**What is written to the output.** A command line that is understood is answered in full or not at
all (`CommandLine.respond_run`). Whatever can fail comes before the first line is written, and
nothing is told to the build tool on the way, since a configuration is read in silence and every
later step reads as it was read.

A line of the answer can still look like one for the build tool. That happens with directives only,
where a path or a name is written as it is and goes on in a second line.
-/

namespace ExtensionPlan.CommandLine

/-! ### Lines for the build tool -/

/-- What a line begins with that tells the build tool about a variable. -/
def announcementMark : List Char := "cargo:rerun-if-env-changed=".toList

/-- A line of the text begins as those do that tell the build tool about a variable. -/
def HasAnnouncement (text : String) : Prop :=
  ∃ line ∈ Text.pieces (· == '\n') text.toList, announcementMark <+: line

theorem break_not_mem_announcementMark : '\n' ∉ announcementMark := by decide

/-- A line that was written may be read as several. -/
theorem hasAnnouncement_unlines_iff {lines : List String} :
    HasAnnouncement (unlines lines) ↔
      ∃ line ∈ lines, ∃ piece ∈ Text.pieces (· == '\n') line.toList, announcementMark <+: piece := by
  unfold HasAnnouncement
  rw [toList_unlines, Text.pieces_lines]
  constructor
  · intro h
    obtain ⟨piece, hpiece, hmark⟩ := h
    rcases List.mem_append.1 hpiece with hpiece | hpiece
    · obtain ⟨chars, hchars, hpiece⟩ := List.mem_flatMap.1 hpiece
      obtain ⟨line, hline, rfl⟩ := List.mem_map.1 hchars
      exact ⟨line, hline, piece, hpiece, hmark⟩
    · rw [List.mem_singleton.1 hpiece] at hmark
      exact absurd hmark (by decide)
  · intro h
    obtain ⟨line, hline, piece, hpiece, hmark⟩ := h
    refine ⟨piece, List.mem_append_left _ (List.mem_flatMap.2 ⟨_, ?_, hpiece⟩), hmark⟩
    exact List.mem_map_of_mem hline

theorem unlines_singleton (line : String) : unlines [line] = line ++ "\n" := by
  simp [unlines, String.join]

/-! ### Answers -/

/-- The text is one document and a line break, and tells the build tool nothing. -/
structure IsDocument (document : Json) (layout : Json.Layout) (text : String) : Prop where
  written : text = .ofList (document.write layout 0) ++ "\n"
  read : Json.read text.toList = some document
  quiet : ¬ HasAnnouncement text

theorem isDocument_unlines {layout : Json.Layout} (hblank : layout.IsBlank)
    (hindents : layout.Indents) (document : Json) :
    IsDocument document layout (unlines [.ofList (document.write layout 0)]) where
  written := unlines_singleton _
  read := by
    have hbreak : ∀ c ∈ ['\n'], Json.isSpace c = true := by
      intro c hc
      rw [List.mem_singleton.1 hc]
      rfl
    rw [unlines_singleton, String.toList_append, String.toList_ofList]
    exact Json.read_write hblank document 0 ['\n'] hbreak
  quiet := by
    rw [hasAnnouncement_unlines_iff]
    intro h
    obtain ⟨line, hline, piece, hpiece, hmark⟩ := h
    rw [List.mem_singleton.1 hline, String.toList_ofList] at hpiece
    exact Json.not_prefix_of_mem_lines hindents break_not_mem_announcementMark
      (c := 'c') rfl (by decide) document 0 piece hpiece hmark

/-- The text is the directives of an artifact, one after the other. A line tells the build tool
about a variable only if a text that is shown has a line break and goes on so. -/
structure IsDirectives (a : Artifact) (text : String) : Prop where
  written : text = unlines a.directiveLines
  announcement_iff : HasAnnouncement text ↔
    ∃ d ∈ a.directives, '\n' :: announcementMark <:+: d.shown.toList

theorem isDirectives_unlines (a : Artifact) : IsDirectives a (unlines a.directiveLines) where
  written := rfl
  announcement_iff := by
    have hlabels : ∀ label ∈ Directive.labels,
        ¬ (announcementMark <+: label.toList ∨ label.toList <+: announcementMark) := by decide
    have hline : ∀ d : Directive, ¬ announcementMark <+: d.line.toList := by
      intro d hmark
      exact hlabels d.label d.label_mem (Directive.prefix_label_of_prefix_line hmark)
    have hmark : ∀ d : Directive,
        (∃ piece ∈ Text.pieces (· == '\n') d.line.toList, announcementMark <+: piece) ↔
          '\n' :: announcementMark <:+: d.shown.toList := by
      intro d
      rw [Text.exists_piece_iff break_not_mem_announcementMark, Directive.break_infix_line_iff]
      exact or_iff_right (hline d)
    rw [hasAnnouncement_unlines_iff, Artifact.directiveLines]
    simp only [List.mem_map, exists_exists_and_eq_and, hmark]

/-- The text lists the settings, one on each line. -/
structure IsKeys (text : String) : Prop where
  lines : Text.pieces (· == '\n') text.toList =
    Setting.all.map (fun s => (padded 24 s.key ++ " " ++ s.name).toList) ++ [[]]
  quiet : ¬ HasAnnouncement text

theorem break_not_mem_keyLines :
    ∀ line ∈ keyLines, '\n' ∉ line.toList ∧ ¬ announcementMark <+: line.toList := by
  decide +kernel

theorem isKeys_unlines : IsKeys (unlines keyLines) where
  lines := by
    rw [(pieces_unlines_iff keyLines).2 fun line hline => (break_not_mem_keyLines line hline).1,
      keyLines, List.map_map]
    rfl
  quiet := by
    rw [hasAnnouncement_unlines_iff]
    intro h
    obtain ⟨line, hline, piece, hpiece, hmark⟩ := h
    obtain ⟨hbreak, hquiet⟩ := break_not_mem_keyLines line hline
    rw [Text.pieces_of_not_mem hbreak] at hpiece
    exact hquiet (List.mem_singleton.1 hpiece ▸ hmark)

/-- The one answer of a command under a configuration. -/
def Command.Prints (c : Configuration) (w : World) (text : String) : Command → Prop
  | .plan compact => ∃ a, (c.plan w).result = .ok a ∧
    IsDocument a.document (if compact then .compact else .pretty) text
  | .directives => ∃ a, (c.plan w).result = .ok a ∧ IsDirectives a text
  | .probe => ∃ t, (c.resolve w).result = .ok t ∧ IsDocument t.document .pretty text
  | .config true => IsKeys text
  | .config false => IsDocument c.document .pretty text

/-- A command whose answer has lines prints them, and nothing else. -/
theorem Command.prints_of_answer {command : Command} {c : Configuration} {w : World}
    {lines : List String} (h : (command.answer c w).result = .ok lines) :
    command.Prints c w (unlines lines) := by
  have hcompact := isDocument_unlines Json.Layout.isBlank_compact Json.Layout.indents_compact
  have hpretty := isDocument_unlines Json.Layout.isBlank_pretty Json.Layout.indents_pretty
  cases command with
  | plan compact =>
      cases compact
      all_goals
        rw [answer, Run.result_bind_pure, map_eq_ok_iff] at h
        obtain ⟨a, ha, rfl⟩ := h
      · exact ⟨a, ha, hpretty a.document⟩
      · exact ⟨a, ha, hcompact a.document⟩
  | directives =>
      rw [answer, Run.result_bind_pure, map_eq_ok_iff] at h
      obtain ⟨a, ha, rfl⟩ := h
      exact ⟨a, ha, isDirectives_unlines a⟩
  | probe =>
      rw [answer, Run.result_bind_pure, map_eq_ok_iff] at h
      obtain ⟨t, ht, rfl⟩ := h
      exact ⟨t, ht, hpretty t.document⟩
  | config keys =>
      cases keys
      all_goals cases h
      · exact hpretty c.document
      · exact isKeys_unlines

/-- What a command does under a configuration fails. The configuration itself can always be
printed. -/
def Command.FailsWith (c : Configuration) (w : World) (e : PlanError) : Command → Prop
  | .plan _ | .directives => (c.plan w).result = .error e
  | .probe => (c.resolve w).result = .error e
  | .config _ => False

/-- A command that has no answer failed at what it does, since writing cannot fail. -/
theorem Command.failsWith_of_answer {command : Command} {c : Configuration} {w : World}
    {e : PlanError} (h : (command.answer c w).result = .error e) : command.FailsWith c w e := by
  cases command with
  | plan compact =>
      cases compact
      all_goals
        rw [answer, Run.result_bind_pure, map_eq_error_iff] at h
        exact h
  | directives =>
      rw [answer, Run.result_bind_pure, map_eq_error_iff] at h
      exact h
  | probe =>
      rw [answer, Run.result_bind_pure, map_eq_error_iff] at h
      exact h
  | config keys =>
      cases keys
      all_goals cases h

/-! ### Silence -/

namespace Overrides

/-- Overriding leaves it as it is how later steps read the environment. -/
theorem reader_of_load {o : Overrides} {w : World} {c : Configuration}
    (h : (o.load w).result = .ok c) : c.reader = .process := by
  unfold load at h
  simp only [Run.result_bind, Run.result_mapError, bind_eq_ok_iff, mapError_eq_ok_iff] at h
  obtain ⟨c, hread, h⟩ := h
  obtain ⟨dir, -, strict, -, aot, haot, kind, -, rfl⟩ := Configuration.read_eq_ok_iff.1 hread
  rw [result_apply_ofParts o haot] at h
  obtain ⟨toggle, -, rfl⟩ := map_eq_ok_iff.1 h
  rfl

theorem silent_apply (o : Overrides) {c : Configuration} (hc : c.reader ≠ .announcing) :
    (o.apply c).Silent := by
  unfold apply toggle
  dsimp only
  cases o.aot with
  | some text =>
      split
      all_goals exact (Run.LeavesNo.pure _).bind fun _ => .look _
  | none =>
      split
      · refine (Run.LeavesNo.read (announcement?_read hc _)).bind fun text => ?_
        exact (Run.LeavesNo.look _).bind fun _ => .pure _
      · exact (Run.LeavesNo.pure _).bind fun _ => .pure _

theorem silent_load (o : Overrides) : o.load.Silent := by
  refine ((Configuration.silent_read (by decide)).mapError _).bind_of_result fun w c hc => ?_
  have hread := mapError_eq_ok_iff.1 hc
  refine (o.silent_apply ?_).mapError _
  rw [Configuration.reader_of_read hread]
  decide

end Overrides

theorem Command.silent_answer (command : Command) {c : Configuration}
    (hc : c.reader ≠ .announcing) : (command.answer c).Silent := by
  have hplan := Configuration.silent_plan hc
  cases command with
  | plan compact =>
      cases compact
      all_goals exact hplan.bind fun _ => .pure _
  | directives => exact hplan.bind fun _ => .pure _
  | probe => exact (Configuration.silent_resolve hc).bind fun _ => .pure _
  | config keys =>
      cases keys
      all_goals exact .pure _

/-- **Silence.** On the way to an answer nothing is told to the build tool. -/
theorem silent_answer (o : Overrides) (command : Command) : (answer o command).Silent := by
  refine o.silent_load.bind_of_result fun w c hc => ?_
  refine (command.silent_answer ?_).mapError _
  rw [Overrides.reader_of_load hc]
  decide

/-- **What is written.** Whatever the surroundings, a command line that asks for a command tells the
build tool nothing on the way. It ends with success and the one answer of the command under its
configuration; or there is no configuration, or what the command does under it fails, and then a
report goes to the other channel and nothing is written. -/
theorem respond_run {arguments : List String} {o : Overrides} {command : Command}
    (h : Request.parse arguments = .ok (.run o command)) (w : World) :
    (answer o command w).announcements = [] ∧
    ((∃ c text, (o.load w).result = .ok c ∧ command.Prints c w text ∧
        respond w arguments = ⟨0, text, ""⟩) ∨
      ∃ failure, ((o.load w).result = .error failure ∨
          ∃ c e, (o.load w).result = .ok c ∧ command.FailsWith c w e ∧ failure = .plan e) ∧
        respond w arguments = ⟨1, "", failure.report⟩) := by
  have hsilent : (answer o command w).announcements = [] := silent_answer o command w
  refine ⟨hsilent, ?_⟩
  cases hresult : (answer o command w).result with
  | ok lines =>
      have hrespond : respond w arguments = ⟨0, unlines lines, ""⟩ := by
        unfold respond
        rw [h]
        simp only [Request.respond, hresult, hsilent, List.nil_append]
      simp only [answer, Run.result_bind, Run.result_mapError, bind_eq_ok_iff,
        mapError_eq_ok_iff] at hresult
      obtain ⟨c, hc, hanswer⟩ := hresult
      exact Or.inl ⟨c, unlines lines, hc, Command.prints_of_answer hanswer, hrespond⟩
  | error failure =>
      have hrespond : respond w arguments = ⟨1, "", failure.report⟩ := by
        unfold respond
        rw [h]
        simp only [Request.respond, hresult, hsilent]
        rfl
      simp only [answer, Run.result_bind, Run.result_mapError, bind_eq_error_iff,
        mapError_eq_error_iff] at hresult
      refine Or.inr ⟨failure, ?_, hrespond⟩
      rcases hresult with hload | ⟨c, hc, e, he, rfl⟩
      · exact Or.inl hload
      · exact Or.inr ⟨c, e, hc, Command.failsWith_of_answer he, rfl⟩

end ExtensionPlan.CommandLine

namespace ExtensionPlan.Sample

open CommandLine

/-- The directives of the installation are printed. -/
theorem respond_run_directives :
    Request.parse ["directives"] = .ok (.run .empty .directives) ∧
    ∃ (c : Configuration) (a : Artifact) (text : String),
      (c.plan (world.withProcess process)).result = .ok a ∧
      respond (world.withProcess process) ["directives"] = ⟨0, text, ""⟩ ∧ IsDirectives a text := by
  have hparse : Request.parse ["directives"] = .ok (.run .empty .directives) := rfl
  obtain ⟨-, hended⟩ := respond_run hparse (world.withProcess process)
  rcases hended with ⟨c, text, -, ⟨a, ha, htext⟩, hrespond⟩ | ⟨failure, -, hfailed⟩
  · exact ⟨hparse, c, a, text, ha, hrespond, htext⟩
  · have hexit : (respond (world.withProcess process) ["directives"]).exitCode = 0 := by
      decide +kernel
    rw [hfailed] at hexit
    cases hexit

/-- The variables of the installation, with the directory of the source whose name goes on in a
second line. -/
def brokenProcess (name : String) : Option String :=
  if name = "EXT_SOURCE_DIR" then some "/r" else process name

/-- The second line of that name looks like one for the build tool. -/
theorem hasAnnouncement_directives : ∃ text,
    respond (brokenWorld.withProcess brokenProcess) ["directives"] = ⟨0, text, ""⟩ ∧
      HasAnnouncement text := by
  have hparse : Request.parse ["directives"] = .ok (.run .empty .directives) := rfl
  have h : (answer .empty .directives (brokenWorld.withProcess brokenProcess)).result.toOption.map
      (·.head?) = some (some ("cargo:rerun-if-changed=/r/" ++ brokenName)) := by
    decide +kernel
  obtain ⟨lines, hlines, hhead⟩ := Option.map_eq_some_iff.1 h
  have hlines := toOption_eq_some_iff.1 hlines
  have hsilent := silent_answer .empty .directives (brokenWorld.withProcess brokenProcess)
  refine ⟨unlines lines, ?_, ?_⟩
  · unfold respond
    rw [hparse]
    simp only [Request.respond, hlines]
    rw [Outcome.announcements, hsilent, List.nil_append]
  · rw [hasAnnouncement_unlines_iff]
    refine ⟨_, List.mem_of_head? hhead, ?_⟩
    rw [Text.exists_piece_iff break_not_mem_announcementMark]
    exact Or.inr ⟨"cargo:rerun-if-changed=/r/a".toList, "X.cc".toList, by decide⟩

end ExtensionPlan.Sample
