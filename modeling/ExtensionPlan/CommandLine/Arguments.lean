import ExtensionPlan.Configuration

/-!
# Arguments of the command line

A command line names one command and may override settings. Overrides may stand before the command
and after it; where both give one, the one after the command counts. A parameter takes the next
argument as its value, or what follows `=` in its own.

`Request.parse` reads a command line. What it refuses is a `UsageError`.
-/

namespace ExtensionPlan.CommandLine

/-! ## Requests -/

/-- Settings that the command line overrides. -/
structure Overrides (π : Type := Path) where
  sourceDir : Option π
  python : Option π
  aot : Option String
  locator : Option LocatorKind
  manifest : Option π
  cudaHome : Option π
  strictToggles : Bool
  deriving DecidableEq, Repr, Inhabited

/-- What is to be done. -/
inductive Command where
  /-- Print the artifact, on one line or spread out. -/
  | plan (compact : Bool)
  /-- Print the directives for a build tool. -/
  | directives
  /-- Print the toolchain. -/
  | probe
  /-- Print the configuration, or the variables that it is read from. -/
  | config (keys : Bool)
  deriving DecidableEq, Repr

/-- What a command line asks for. -/
inductive Request where
  | help
  | run (overrides : Overrides) (command : Command)
  deriving DecidableEq, Repr

/-- Why a command line is refused. -/
inductive UsageError where
  | noCommand
  | unexpected (argument : String)
  | repeated (parameter : String)
  | noValue (parameter : String)
  | badValue (parameter value : String)
  | needlessValue (parameter : String)
  deriving DecidableEq, Repr

/-- The wording of a refusal. -/
def UsageError.message : UsageError → String
  | .noCommand => "error: no command is given"
  | .unexpected argument => "error: unexpected argument " ++ Text.quoted argument
  | .repeated parameter => "error: --" ++ parameter ++ " is given twice"
  | .noValue parameter => "error: --" ++ parameter ++ " needs a value"
  | .badValue parameter value =>
    "error: the value of --" ++ parameter ++ " cannot be " ++ Text.quoted value
  | .needlessValue parameter => "error: --" ++ parameter ++ " takes no value"

/-! ## Parameters -/

/-- A named parameter of the command line. -/
inductive Parameter where
  | sourceDir
  | python
  | aot
  | locator
  | manifest
  | cudaHome
  | strictToggles
  | compact
  | keys
  | help
  deriving DecidableEq, Repr

namespace Parameter

/-- The parameter without its dashes. -/
def name : Parameter → String
  | .sourceDir => "source-dir"
  | .python => "python"
  | .aot => "aot"
  | .locator => "locator"
  | .manifest => "manifest"
  | .cudaHome => "cuda-home"
  | .strictToggles => "strict-feature-flags"
  | .compact => "compact"
  | .keys => "keys"
  | .help => "help"

/-- Does the parameter take a value? -/
def takesValue : Parameter → Bool
  | .sourceDir | .python | .aot | .locator | .manifest | .cudaHome => true
  | .strictToggles | .compact | .keys | .help => false

/-- The parameters that may stand before and after any command. -/
def everywhere : List Parameter :=
  [.sourceDir, .python, .aot, .locator, .manifest, .cudaHome, .strictToggles, .help]

end Parameter

/-- The name of a command, the parameters of its own, and the command that they make. -/
structure CommandSpec where
  name : String
  parameters : List Parameter
  command : List Parameter → Command

/-- The commands. -/
def commandSpecs : List CommandSpec :=
  [⟨"plan", [.compact], fun given => .plan (given.contains .compact)⟩,
    ⟨"directives", [], fun _ => .directives⟩,
    ⟨"probe", [], fun _ => .probe⟩,
    ⟨"config", [.keys], fun given => .config (given.contains .keys)⟩]

/-! ## Overrides -/

namespace Overrides

/-- The overrides with their paths in another form. -/
def map {π ρ : Type} (f : π → ρ) (o : Overrides π) : Overrides ρ :=
  { o with
    sourceDir := o.sourceDir.map f
    python := o.python.map f
    manifest := o.manifest.map f
    cudaHome := o.cudaHome.map f }

/-- No overrides. -/
def empty : Overrides where
  sourceDir := none
  python := none
  aot := none
  locator := none
  manifest := none
  cudaHome := none
  strictToggles := false

/-- The overrides with the value of a parameter in them. Paths must not be empty. -/
def set (o : Overrides) (parameter : Parameter) (value : String) : Except UsageError Overrides :=
  let path : Except UsageError Path :=
    if value = "" then .error (.badValue parameter.name value) else .ok value
  match parameter with
  | .sourceDir => path.map fun p => { o with sourceDir := some p }
  | .python => path.map fun p => { o with python := some p }
  | .manifest => path.map fun p => { o with manifest := some p }
  | .cudaHome => path.map fun p => { o with cudaHome := some p }
  | .aot => .ok { o with aot := some value }
  | .locator =>
    match LocatorKind.parse value with
    | .ok kind => .ok { o with locator := some kind }
    | .error _ => .error (.badValue parameter.name value)
  | .strictToggles => .ok { o with strictToggles := true }
  | .compact | .keys | .help => .ok o

/-- Two sets of overrides in one. The inner ones count where both give one. -/
def around (outer inner : Overrides) : Overrides where
  sourceDir := inner.sourceDir <|> outer.sourceDir
  python := inner.python <|> outer.python
  aot := inner.aot <|> outer.aot
  locator := inner.locator <|> outer.locator
  manifest := inner.manifest <|> outer.manifest
  cudaHome := inner.cudaHome <|> outer.cudaHome
  strictToggles := outer.strictToggles || inner.strictToggles

end Overrides

/-! ## Reading -/

/-- An argument by its form. -/
inductive Word where
  /-- The two dashes after which there are no parameters. -/
  | separator
  | long (name : String) (value : Option String)
  | short (letter : Char)
  /-- A value, or the name of a command. -/
  | plain (text : String)
  deriving DecidableEq, Repr

/-- The form of an argument. A dash alone is a value. -/
def Word.ofString (text : String) : Word :=
  match text.toList with
  | ['-', '-'] => .separator
  | '-' :: '-' :: rest =>
    let name := rest.takeWhile (· != '=')
    let value := rest.drop (name.length + 1)
    .long (.ofList name) (if rest.contains '=' then some (.ofList value) else none)
  | '-' :: letter :: _ => .short letter
  | _ => .plain text

/-- How far the reading of parameters has come. -/
structure Progress where
  overrides : Overrides
  /-- The parameters that were given. -/
  given : List Parameter

/-- Nothing was read yet. -/
def Progress.start : Progress := ⟨.empty, []⟩

/-- Take a parameter in, with its value if it takes one. None may be given twice. -/
def Progress.take (progress : Progress) (parameter : Parameter) (value : String) :
    Except UsageError Progress :=
  if parameter ∈ progress.given then .error (.repeated parameter.name)
  else do
    return ⟨← progress.overrides.set parameter value, parameter :: progress.given⟩

/-- Where the reading of parameters ends. -/
inductive Stop where
  /-- At the end of the arguments. -/
  | finished (progress : Progress)
  /-- At a plain argument, after which there are others. -/
  | plain (progress : Progress) (text : String) (rest : List String)
  /-- Where help is asked for. -/
  | help

/-- Read parameters, of which `allowed` are known, up to a plain argument. -/
def readParameters (allowed : List Parameter) (progress : Progress) :
    List String → Except UsageError Stop
  | [] => .ok (.finished progress)
  | argument :: rest =>
    match Word.ofString argument with
    | .plain text => .ok (.plain progress text rest)
    | .separator =>
      match rest with
      | [] => .ok (.finished progress)
      | next :: _ => .error (.unexpected next)
    | .short letter => if letter = 'h' then .ok .help else .error (.unexpected argument)
    | .long name value =>
      match allowed.find? fun p => p.name == name with
      | none => .error (.unexpected argument)
      | some parameter =>
        if parameter.takesValue then
          match value, rest with
          | some value, rest => do readParameters allowed (← progress.take parameter value) rest
          | none, [] => .error (.noValue parameter.name)
          | none, next :: rest =>
            match Word.ofString next with
            | .plain value => do readParameters allowed (← progress.take parameter value) rest
            | _ => .error (.noValue parameter.name)
        else if value.isSome then .error (.needlessValue parameter.name)
        else if parameter = .help then .ok .help
        else do readParameters allowed (← progress.take parameter "") rest

/-- Read what follows the name of a command. -/
def CommandSpec.read (spec : CommandSpec) (outer : Overrides) (arguments : List String) :
    Except UsageError Request := do
  match ← readParameters (Parameter.everywhere ++ spec.parameters) .start arguments with
  | .finished inner => .ok (.run (outer.around inner.overrides) (spec.command inner.given))
  | .plain _ text _ => .error (.unexpected text)
  | .help => .ok .help

/-- What a command line asks for. -/
def Request.parse (arguments : List String) : Except UsageError Request := do
  match ← readParameters Parameter.everywhere .start arguments with
  | .finished _ => .error .noCommand
  | .help => .ok .help
  | .plain outer text rest =>
    match commandSpecs.find? (·.name == text) with
    | some spec => spec.read outer.overrides rest
    | none =>
      let known := "help" :: commandSpecs.map (·.name)
      if text = "help" ∧ rest.length ≤ 1 ∧ rest.all known.contains then .ok .help
      else .error (.unexpected text)

end ExtensionPlan.CommandLine
