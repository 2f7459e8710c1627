import ExtensionPlan.Locator
import ExtensionPlan.Proofs.Plan.Directives
import ExtensionPlan.Proofs.Text.LastLine

/-!
# ExtensionPlan.Proofs.Locator.Answer

**What an interpreter answers.** A question is answered by a reply that ended with the code that the
question demands, and whose last line that is not blank says something other than `None`. That line
without the white space around it is the answer. Each other reply is a failure that names the
dependency and the expression (`Interpreter.ask_eq_ok_iff`, `Interpreter.ask_eq_error_iff`).

**Noise.** Lines in front of a reply that has a last line do not change the answer, and white space
behind a reply changes nothing at all (`Interpreter.lastLine_ask`). Without an answer the lines in
front can be seen: the failure quotes what the interpreter wrote, and they are a part of it
(`Sample.not_ignoresNoise`).
-/

namespace ExtensionPlan

variable {q : Query} {reply : Reply} {value blank : String}

/-- White space at the end of a text is trimmed away with the rest. -/
theorem trimBlank_append_blank (text : String)
    (hblank : ∀ c ∈ blank.toList, Text.isBlank c = true) :
    (text ++ blank).trimBlank = text.trimBlank := by
  rw [String.trimBlank, String.toList_append, Text.trim_append_blank hblank, String.trimBlank]

theorem Diagnosis.message_unusable (stdout : String) : (Diagnosis.unusable stdout).message =
    "query printed no usable value: " ++ Text.quoted stdout.trimBlank := rfl

theorem Diagnosis.message_unsuccessful (reply : Reply) :
    (Diagnosis.unsuccessful reply).message = reply.diagnosis := rfl

namespace Query

/-- The reply gives the value. -/
structure Says (q : Query) (reply : Reply) (value : String) : Prop where
  ended : reply.status = some q.successCode
  /-- The value is the last line that is not blank, without the white space around it. -/
  last : Text.IsLastLine reply.stdout.toList value.toList
  usable : value ≠ "None"

/-- What comes of putting the question, and what is said of it if that is no answer. -/
inductive Unanswered (q : Query) : Except SystemError Reply → Diagnosis → Prop
  | notStarted (cause : SystemError) : Unanswered q (.error cause) (.notStarted cause)
  | unsuccessful {reply : Reply} (ended : reply.status ≠ some q.successCode) :
      Unanswered q (.ok reply) (.unsuccessful reply)
  | unusable {reply : Reply} (ended : reply.status = some q.successCode)
      (silent : ∀ value, ¬ q.Says reply value) : Unanswered q (.ok reply) (.unusable reply.stdout)

/-- Two results have the same value, or they blame the question in the same words. -/
def AnswersAlike (q : Query) (first second : Except PlanError String) : Prop :=
  (∃ value, first = .ok value ∧ second = .ok value) ∨
  ∃ diagnosis other, first = .error (q.failure diagnosis) ∧ second = .error (q.failure other) ∧
    diagnosis.message = other.message

theorem Says.filled (h : q.Says reply value) : value ≠ "" := by
  rintro rfl
  exact h.last.filled rfl

/-! ### Replies -/

/-- **Answers** are the values that a reply gives. -/
theorem answer_eq_ok_iff : q.answer reply = .ok value ↔ q.Says reply value := by
  constructor
  · intro h
    unfold answer at h
    split at h
    · next ended =>
      split at h
      · next line hline =>
        split at h
        · cases h
        · next hnone =>
          cases h
          refine ⟨ended, ?_, fun heq => hnone ?_⟩
          · rw [String.toList_ofList]
            exact Text.getLast?_filledLines_eq_some_iff.1 hline
          · rw [← heq, String.toList_ofList]
      · cases h
    · cases h
  · intro h
    have hnone : value.toList ≠ "None".toList := fun heq => h.usable (String.toList_inj.1 heq)
    rw [answer_eq_ok h.ended (Text.getLast?_filledLines_eq_some_iff.2 h.last) hnone,
      String.ofList_toList]

theorem answer_of_status_ne (ended : reply.status ≠ some q.successCode) :
    q.answer reply = .error (q.failure (.unsuccessful reply)) := by
  rw [answer, if_neg ended]

theorem answer_of_silent (ended : reply.status = some q.successCode)
    (silent : ∀ value, ¬ q.Says reply value) :
    q.answer reply = .error (q.failure (.unusable reply.stdout)) := by
  cases h : q.answer reply with
  | ok value => exact absurd (answer_eq_ok_iff.1 h) (silent value)
  | error e =>
      rw [answer, if_pos ended] at h
      split at h
      · split at h
        · rw [h]
        · cases h
      · rw [h]

/-- A reply without an answer is told as one that ended badly, or by what it printed. -/
theorem answer_eq_error_iff {e : PlanError} : q.answer reply = .error e ↔
    ∃ diagnosis, e = q.failure diagnosis ∧ q.Unanswered (.ok reply) diagnosis := by
  constructor
  · intro h
    by_cases ended : reply.status = some q.successCode
    · have silent : ∀ value, ¬ q.Says reply value := by
        intro value hgiven
        rw [answer_eq_ok_iff.2 hgiven] at h
        cases h
      rw [answer_of_silent ended silent, Except.error.injEq] at h
      exact ⟨_, h.symm, .unusable ended silent⟩
    · rw [answer_of_status_ne ended, Except.error.injEq] at h
      exact ⟨_, h.symm, .unsuccessful ended⟩
  · rintro ⟨diagnosis, rfl, hunanswered⟩
    cases hunanswered with
    | unsuccessful ended => exact answer_of_status_ne ended
    | unusable ended silent => exact answer_of_silent ended silent

/-! ### Noise -/

/-- Of what a reply printed, nothing counts but the last line. -/
theorem says_congr {stdout : String} (h : (Text.filledLines stdout.toList).getLast? =
    (Text.filledLines reply.stdout.toList).getLast?) :
    q.Says { reply with stdout := stdout } value ↔ q.Says reply value := by
  have hlast : Text.IsLastLine stdout.toList value.toList ↔
      Text.IsLastLine reply.stdout.toList value.toList := by
    rw [← Text.getLast?_filledLines_eq_some_iff, h, Text.getLast?_filledLines_eq_some_iff]
  constructor
  · intro hgiven
    exact ⟨hgiven.ended, hlast.1 hgiven.last, hgiven.usable⟩
  · intro hgiven
    exact ⟨hgiven.ended, hlast.2 hgiven.last, hgiven.usable⟩

theorem says_append_newline_iff (noise : String) (h : Text.IsFilled reply.stdout.toList) :
    q.Says { reply with stdout := noise ++ "\n" ++ reply.stdout } value ↔ q.Says reply value := by
  refine says_congr ?_
  rw [String.toList_append, String.toList_append, List.append_assoc]
  exact Text.getLast?_filledLines_append_newline noise.toList h

theorem says_append_blank_iff (hblank : ∀ c ∈ blank.toList, Text.isBlank c = true) :
    q.Says { reply with stdout := reply.stdout ++ blank } value ↔ q.Says reply value := by
  refine says_congr ?_
  rw [String.toList_append, Text.filledLines_append_blank hblank]

/-- White space behind a reply is not in the words of a failure either. -/
theorem answersAlike_append_blank (q : Query) (reply : Reply)
    (hblank : ∀ c ∈ blank.toList, Text.isBlank c = true) :
    q.AnswersAlike (q.answer reply)
      (q.answer { reply with stdout := reply.stdout ++ blank }) := by
  by_cases ended : reply.status = some q.successCode
  · by_cases h : ∃ value, q.Says reply value
    · obtain ⟨value, hgiven⟩ := h
      exact Or.inl ⟨value, answer_eq_ok_iff.2 hgiven,
        answer_eq_ok_iff.2 ((says_append_blank_iff hblank).2 hgiven)⟩
    · have silent := not_exists.1 h
      refine Or.inr ⟨_, _, answer_of_silent ended silent, answer_of_silent ended fun value hgiven =>
        silent value ((says_append_blank_iff hblank).1 hgiven), ?_⟩
      rw [Diagnosis.message_unusable, Diagnosis.message_unusable, trimBlank_append_blank _ hblank]
  · refine Or.inr ⟨_, _, answer_of_status_ne ended, answer_of_status_ne ended, ?_⟩
    rw [Diagnosis.message_unsuccessful, Diagnosis.message_unsuccessful, Reply.diagnosis,
      Reply.diagnosis, trimBlank_append_blank _ hblank]

end Query

/-! ### Interpreters -/

/-- Lines in front of a reply that has a last line make no difference at all. -/
def Query.IgnoresNoise (q : Query) : Prop :=
  ∀ (i j : Interpreter) (w : World) (reply : Reply) (noise : String),
    i.evaluate q.expression w = .ok reply →
    (∃ line ∈ Text.pieces (· == '\n') reply.stdout.toList, Text.IsFilled line) →
    j.evaluate q.expression w = .ok { reply with stdout := noise ++ "\n" ++ reply.stdout } →
    q.AnswersAlike (i.ask q w).result (j.ask q w).result

namespace Interpreter

variable {i : Interpreter} {w : World}

/-- A question is put, and its answer is what the reply says. -/
theorem result_ask (i : Interpreter) (q : Query) (w : World) :
    (i.ask q w).result =
      (i.evaluate q.expression w).mapError (fun cause => q.failure (.notStarted cause)) >>=
        q.answer := by
  unfold ask
  rw [Run.result_bind, Run.result_log, ok_bind, Run.result_bind]
  rfl

theorem result_ask_of_evaluate (h : i.evaluate q.expression w = .ok reply) :
    (i.ask q w).result = q.answer reply := by
  rw [result_ask, h]
  rfl

theorem ask_eq_ok_iff : (i.ask q w).result = .ok value ↔
    ∃ reply, i.evaluate q.expression w = .ok reply ∧ q.Says reply value := by
  rw [result_ask, bind_eq_ok_iff]
  simp only [mapError_eq_ok_iff, Query.answer_eq_ok_iff]

theorem ask_eq_error_iff {e : PlanError} : (i.ask q w).result = .error e ↔
    ∃ diagnosis, e = q.failure diagnosis ∧
      q.Unanswered (i.evaluate q.expression w) diagnosis := by
  cases h : i.evaluate q.expression w with
  | ok reply => rw [result_ask_of_evaluate h, Query.answer_eq_error_iff]
  | error cause =>
      have hresult : (i.ask q w).result = .error (q.failure (.notStarted cause)) := by
        rw [result_ask, h]
        rfl
      rw [hresult, Except.error.injEq]
      constructor
      · rintro rfl
        exact ⟨_, rfl, .notStarted cause⟩
      · rintro ⟨diagnosis, rfl, hunanswered⟩
        cases hunanswered
        rfl

/-- **The last line is the answer.** A question is answered exactly by a reply that ended as it has
to and whose last line that is not blank is not `None`, and the answer is that line without the
white space around it. Whatever else comes of the question, it is a failure that names the
dependency and the expression.

An interpreter that prints more lines in front of the same reply gives the same answer, and one that
prints white space behind it also fails in the same words. -/
theorem lastLine_ask (i : Interpreter) (q : Query) (w : World) :
    (∀ value, (i.ask q w).result = .ok value ↔
      ∃ reply, i.evaluate q.expression w = .ok reply ∧ q.Says reply value) ∧
    (∀ value, (i.ask q w).result = .ok value →
      value ≠ "" ∧ '\n' ∉ value.toList ∧ Text.IsTrimmed value.toList) ∧
    (∀ e, (i.ask q w).result = .error e ↔
      ∃ diagnosis, e = .notLocated q.dependency.name q.expression diagnosis ∧
        q.Unanswered (i.evaluate q.expression w) diagnosis) ∧
    ∀ (j : Interpreter) (reply : Reply), i.evaluate q.expression w = .ok reply →
      (∀ noise, (∃ line ∈ Text.pieces (· == '\n') reply.stdout.toList, Text.IsFilled line) →
        j.evaluate q.expression w =
          .ok { reply with stdout := noise ++ "\n" ++ reply.stdout } →
        (j.ask q w).result.toOption = (i.ask q w).result.toOption) ∧
      ∀ blank, (∀ c ∈ blank.toList, Text.isBlank c = true) →
        j.evaluate q.expression w = .ok { reply with stdout := reply.stdout ++ blank } →
        q.AnswersAlike (i.ask q w).result (j.ask q w).result := by
  refine ⟨fun value => ask_eq_ok_iff, ?_, fun e => ask_eq_error_iff, ?_⟩
  · intro value h
    obtain ⟨reply, -, hgiven⟩ := ask_eq_ok_iff.1 h
    exact ⟨hgiven.filled, hgiven.last.unbroken, hgiven.last.isTrimmed⟩
  · intro j reply hi
    constructor
    · intro noise hline hj
      have hfilled := Text.isFilled_iff_exists_piece.2 hline
      rw [result_ask_of_evaluate hi, result_ask_of_evaluate hj]
      refine Option.ext fun value => ?_
      rw [toOption_eq_some_iff, toOption_eq_some_iff, Query.answer_eq_ok_iff,
        Query.answer_eq_ok_iff, Query.says_append_newline_iff noise hfilled]
    · intro blank hblank hj
      rw [result_ask_of_evaluate hi, result_ask_of_evaluate hj]
      exact Query.answersAlike_append_blank q reply hblank

end Interpreter

namespace Sample

/-- An interpreter that prints a text whatever it is asked, and ends with code 3. -/
def printer (stdout : String) : Interpreter := .answers fun _ => .ok ⟨some 3, stdout, ""⟩

/-- The question for the tensor runtime that demands this code. -/
def runtimeQuery : Query := .ofDependency .tensorRuntime 3

/-- A warning in front of the place, and white space behind it. -/
theorem lastLine_ask_warning :
    Text.IsFilled "/opt/torch".toList ∧
    ((printer ("a warning" ++ "\n" ++ "/opt/torch")).ask runtimeQuery world).result.toOption =
      ((printer "/opt/torch").ask runtimeQuery world).result.toOption ∧
    (∀ c ∈ " \r\n\u3000".toList, Text.isBlank c = true) ∧
    runtimeQuery.AnswersAlike ((printer "/opt/torch").ask runtimeQuery world).result
      ((printer ("/opt/torch" ++ " \r\n\u3000")).ask runtimeQuery world).result ∧
    ((printer "/opt/torch").ask runtimeQuery world).result.toOption = some "/opt/torch" := by
  have hblank : ∀ c ∈ " \r\n\u3000".toList, Text.isBlank c = true :=
    List.all_eq_true.1 (by decide)
  have hfilled : Text.IsFilled "/opt/torch".toList := ⟨'/', by decide, by decide⟩
  obtain ⟨-, -, -, hlast⟩ := Interpreter.lastLine_ask (printer "/opt/torch") runtimeQuery world
  exact ⟨hfilled, (hlast (printer ("a warning" ++ "\n" ++ "/opt/torch")) _ rfl).1 _
      (Text.isFilled_iff_exists_piece.1 hfilled) rfl, hblank,
    (hlast (printer ("/opt/torch" ++ " \r\n\u3000")) _ rfl).2 _ hblank rfl, by decide +kernel⟩

/-- Without an answer, the lines in front are quoted with the rest. -/
theorem not_ignoresNoise : ¬ runtimeQuery.IgnoresNoise := by
  intro h
  have hline : ∃ line ∈ Text.pieces (· == '\n') "None\n".toList, Text.IsFilled line :=
    Text.isFilled_iff_exists_piece.1 ⟨'N', by decide, by decide⟩
  have hquiet : ((printer "None\n").ask runtimeQuery world).result =
      .error (runtimeQuery.failure (.unusable "None\n")) := by rfl
  have hnoisy : ((printer "a warning\nNone\n").ask runtimeQuery world).result =
      .error (runtimeQuery.failure (.unusable "a warning\nNone\n")) := by rfl
  rcases h (printer "None\n") (printer "a warning\nNone\n") world _ "a warning" rfl hline rfl with
    ⟨value, hvalue, -⟩ | ⟨diagnosis, other, hfirst, hsecond, hmessage⟩
  · rw [hquiet] at hvalue
    cases hvalue
  · rw [hquiet] at hfirst
    rw [hnoisy] at hsecond
    cases hfirst
    cases hsecond
    exact absurd hmessage (by decide +kernel)

end Sample

end ExtensionPlan
