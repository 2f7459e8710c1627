import ExtensionPlan.Configuration
import ExtensionPlan.Executable
import ExtensionPlan.Manifest

/-!
# Locating dependencies

A locator answers one question: where is a dependency installed? The answer is a text, for most
dependencies a path. An interpreter knows where its packages are; a manifest or the environment
can tell it where there is no interpreter.

* `Dependency` — what can be asked for, and how it is called in each place;
* `Query.answer` — what an interpreter's reply says;
* `Locator.locate` — the location of a dependency.
-/

namespace ExtensionPlan

/-! ## Dependencies -/

/-- Something whose place has to be located. -/
inductive Dependency where
  /-- The package directory of the binding generator. -/
  | bindingLibrary
  /-- The package directory of the tensor runtime. -/
  | tensorRuntime
  /-- The directory of the interpreter's headers. -/
  | pythonHeaders
  /-- The ending of the file names of extension modules. -/
  | extensionSuffix
  deriving DecidableEq, Repr

namespace Dependency

/-- The name in messages. -/
def name : Dependency → String
  | .bindingLibrary => "pybind11"
  | .tensorRuntime => "torch"
  | .pythonHeaders => "python headers"
  | .extensionSuffix => "extension suffix"

/-- The key in a manifest. -/
def manifestKey : Dependency → String
  | .bindingLibrary => "pybind11"
  | .tensorRuntime => "torch"
  | .pythonHeaders => "python_include"
  | .extensionSuffix => "ext_suffix"

/-- The environment variable. -/
def key : Dependency → String
  | .bindingLibrary => "EXT_PYBIND11_DIR"
  | .tensorRuntime => "EXT_TORCH_PREFIX"
  | .pythonHeaders => "EXT_PYTHON_INCLUDE"
  | .extensionSuffix => "EXT_PYTHON_EXT_SUFFIX"

/-- The expression that makes an interpreter print the location. -/
def expression : Dependency → String
  | .bindingLibrary => "import pybind11; print(pybind11.get_cmake_dir())"
  | .tensorRuntime => "import torch; print(torch.utils.cmake_prefix_path)"
  | .pythonHeaders => "import sysconfig; print(sysconfig.get_path('include'))"
  | .extensionSuffix => "import sysconfig; print(sysconfig.get_config_var('EXT_SUFFIX'))"

/-- Is the location a path? -/
def isPath (d : Dependency) : Bool := d != .extensionSuffix

/-- All dependencies. -/
def all : List Dependency := [.bindingLibrary, .tensorRuntime, .pythonHeaders, .extensionSuffix]

end Dependency

/-! ## Queries -/

/-- A question to an interpreter, and the exit code with which it has to end. -/
structure Query where
  dependency : Dependency
  expression : String
  successCode : Int
  deriving DecidableEq, Repr

namespace Query

/-- The question for a dependency. -/
def ofDependency (d : Dependency) (successCode : Int) : Query :=
  ⟨d, d.expression, successCode⟩

/-- The error that the question was not answered. -/
def failure (q : Query) (diagnosis : Diagnosis) : PlanError :=
  .notLocated q.dependency.name q.expression diagnosis

/-- What a reply says: the last line that is not blank. Lines before it may be warnings, and
`None` is no answer. -/
def answer (q : Query) (reply : Reply) : Except PlanError String :=
  if reply.status = some q.successCode then
    match (Text.filledLines reply.stdout.toList).getLast? with
    | some line =>
      if line = "None".toList then .error (q.failure (.unusable reply.stdout))
      else .ok (.ofList line)
    | none => .error (q.failure (.unusable reply.stdout))
  else .error (q.failure (.unsuccessful reply))

end Query

/-! ## Locators -/

/-- What answers expressions. -/
inductive Interpreter where
  /-- The program at a path. -/
  | program (path : Path)
  /-- Answers that are given beforehand. -/
  | answers (reply : String → Except SystemError Reply)

/-- The reply of an interpreter to an expression. -/
def Interpreter.evaluate (i : Interpreter) (expression : String) (w : World) :
    Except SystemError Reply :=
  match i with
  | .program path => w.execute path expression
  | .answers reply => reply expression

/-- A way to locate dependencies. -/
inductive Locator where
  | interpreter (interpreter : Interpreter) (successCode : Int)
  /-- A manifest, and the path from which its relative paths are seen. -/
  | manifest (path : Path) (manifest : Manifest)
  | environment (reader : Reader)

/-- Put a question to an interpreter. -/
def Interpreter.ask (i : Interpreter) (q : Query) : Run PlanError String := do
  Run.log (.asked q.expression)
  let reply ← Run.look fun w =>
    (i.evaluate q.expression w).mapError fun e => q.failure (.notStarted e)
  Run.look fun _ => q.answer reply

/-- The location of a dependency according to the manifest at `path`. -/
def Manifest.locate (m : Manifest) (path : Path) (d : Dependency) : Except PlanError String :=
  match (m.get? d.manifestKey).filter (·.trimBlank ≠ "") with
  | none => .error (.notLocated d.name (d.manifestKey ++ " in " ++ path.text) .noEntry)
  | some value =>
    if d.isPath && !(Path.ofString value).isAbsolute then
      .ok ((path.parent?.getD ".").join value).text
    else .ok value

namespace Locator

/-- The location of a dependency. -/
def locate (l : Locator) (d : Dependency) : Run PlanError String :=
  match l with
  | .interpreter i successCode => i.ask (.ofDependency d successCode)
  | .manifest path m => Run.look fun _ => m.locate path d
  | .environment reader => do
    match (← Run.read reader d.key).filter (·.trimBlank ≠ "") with
    | some value => return value
    | none => Run.fail (.notLocated d.name ("$" ++ d.key) .unset)

/-- A short description. -/
def description : Locator → String
  | .interpreter _ _ => "interpreter"
  | .manifest path _ => "manifest " ++ path.text
  | .environment _ => "environment"

/-- The locator that reads the manifest at a path. -/
def ofManifest (path : Path) : Run PlanError Locator :=
  Run.look fun w => do
    let text ← (w.readText path).mapError (.system path)
    match Manifest.read text with
    | some m => .ok (.manifest path m)
    | none => .error (.rejected Setting.manifest.key path.text .notManifest)

/-- The locator that a configuration chooses. -/
def ofConfiguration (c : Configuration) : Run PlanError Locator :=
  match c.locator with
  | .interpreter => do
    let python ← match c.python with
      | some python => pure python
      | none =>
        (findInterpreter c.reader).mapError fun _ => .notLocated "python" "" .noInterpreter
    return .interpreter (.program python) 0
  | .manifest =>
    match c.manifest with
    | some path => ofManifest path
    | none => Run.fail (.rejected Setting.manifest.key "" .noManifest)
  | .environment => pure (.environment c.reader)

end Locator

end ExtensionPlan
