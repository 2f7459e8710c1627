import ExtensionPlan.Artifact.Directive
import ExtensionPlan.CommandLine.Arguments
import ExtensionPlan.Description

/-!
# Answers of the command line

A request is carried out in some surroundings and gives an exit code and what is written to the
two output channels. Whatever the request leaves to be announced is written first, then its
answer; a request that fails writes a report to the other channel instead.
-/

namespace ExtensionPlan.CommandLine

/-! ## Overriding a configuration -/

/-- The configuration with the overrides of all settings but the toggles. -/
def Overrides.given {π : Type} (o : Overrides π) (c : Configuration π) : Configuration π :=
  { c with
    sourceDir := o.sourceDir.getD c.sourceDir
    python := o.python <|> c.python
    locator := o.locator.getD c.locator
    manifest := o.manifest <|> c.manifest
    cudaHome := o.cudaHome <|> c.cudaHome }

/-- The configuration with the overrides of toggles. If toggles become strict only here, the kernel
toggle is read again, since it was understood leniently before. -/
def Overrides.toggle {π : Type} (o : Overrides π) (c : Configuration π) :
    Run PlanError (Configuration π) := do
  let c ← if o.strictToggles && !c.strictToggles then do
      let c := { c with strictToggles := true }
      if o.aot.isSome then pure c
      else
        let text ← Run.read c.reader Setting.aot.key
        Run.look fun _ => c.setAot text
    else pure c
  match o.aot with
  | some text => Run.look fun _ => c.setAot (some text)
  | none => pure c

/-- The configuration with the overrides. -/
def Overrides.apply {π : Type} (o : Overrides π) (c : Configuration π) :
    Run PlanError (Configuration π) := o.toggle (o.given c)

/-- Why a request fails. -/
inductive Failure where
  /-- The environment describes no configuration. -/
  | configuration (cause : PlanError)
  | plan (cause : PlanError)
  deriving DecidableEq, Repr

/-- The configuration of the environment with the overrides. Nothing is announced. -/
def Overrides.load (o : Overrides) : Run Failure Configuration := do
  let c ← (Configuration.read .process).mapError .configuration
  (o.apply c).mapError .plan

/-! ## Carrying out -/

/-- The text with spaces after it, to the width. -/
def padded (width : Nat) (text : String) : String :=
  text ++ .ofList (List.replicate (width - text.length) ' ')

/-- The lines that list the settings and their variables. -/
def keyLines : List String := Setting.all.map fun s => padded 24 s.key ++ " " ++ s.name

/-- The lines that answer a command. -/
def Command.answer (c : Configuration) : Command → Run PlanError (List String)
  | .plan true => return [(← c.plan).document.compact]
  | .plan false => return [(← c.plan).document.pretty]
  | .directives => return (← c.plan).directiveLines
  | .probe => return [(← c.resolve).document.pretty]
  | .config true => return keyLines
  | .config false => return [c.document.pretty]

/-- The lines that answer a command under overrides. -/
def answer (o : Overrides) (command : Command) : Run Failure (List String) := do
  let c ← o.load
  (command.answer c).mapError .plan

/-! ## Reporting -/

/-- The text with its lines after the first moved in. -/
def indented (text : String) : String :=
  .ofList (text.toList.flatMap fun c => if c = '\n' then "\n    ".toList else [c])

/-- The part of a report that lists causes, the nearest first. They are numbered if there are
several. -/
def causeLines : List String → String
  | [] => ""
  | [cause] => "\n\nCaused by:\n    " ++ indented cause
  | causes =>
    "\n\nCaused by:" ++ .join (causes.mapIdx fun i cause =>
      "\n    " ++ toString i ++ ": " ++ indented cause)

/-- The report of a failure: what it is, and its causes. -/
def Failure.report : Failure → String
  | .plan e => "Error: " ++ e.message ++ causeLines e.cause?.toList ++ "\n"
  | .configuration e =>
    "Error: reading configuration" ++ causeLines (e.message :: e.cause?.toList) ++ "\n"

/-! ## Responding -/

/-- What a run of the program shows. -/
structure Response where
  exitCode : Nat
  stdout : String
  stderr : String
  deriving DecidableEq, Repr

/-- The lines, each with its end. -/
def unlines (lines : List String) : String := .join (lines.map (· ++ "\n"))

/-- What is written when help is asked for. -/
def usage : String := unlines [
  "Usage: [overrides] <command> [overrides]",
  "",
  "Commands:",
  "  plan [--compact]   Assemble the extension and print its build description as JSON",
  "  directives         Assemble the extension and print cargo build-script directives",
  "  probe              Resolve the toolchain only and print it as JSON",
  "  config [--keys]    Print the effective configuration, or the variables it is read from",
  "",
  "Overrides:",
  "  --source-dir <path>  --python <path>    --aot <toggle>  --locator <kind>",
  "  --manifest <path>    --cuda-home <path> --strict-feature-flags"]

/-- The response to a request. -/
def Request.respond (w : World) : Request → Response
  | .help => ⟨0, usage, ""⟩
  | .run o command =>
    let outcome := answer o command w
    match outcome.result with
    | .ok lines => ⟨0, unlines (outcome.announcements ++ lines), ""⟩
    | .error failure => ⟨1, unlines outcome.announcements, failure.report⟩

/-- The response to a command line. -/
def respond (w : World) (arguments : List String) : Response :=
  match Request.parse arguments with
  | .ok request => request.respond w
  | .error e => ⟨2, "", e.message ++ "\n"⟩

end ExtensionPlan.CommandLine
