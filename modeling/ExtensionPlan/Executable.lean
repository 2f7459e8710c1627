import ExtensionPlan.Run
import ExtensionPlan.PlanError

/-!
# Finding and running programs

`World.findProgram` looks a program up along the search path, as a user who types its name would
expect; `World.execute` starts one and hands it an expression. The two follow different rules: the
first skips what cannot be run, the second reports why.
-/

namespace ExtensionPlan

namespace World

/-- Does the path lead to a regular file that may be executed? -/
def isExecutable (w : World) (p : Path) : Bool :=
  match w.find p with
  | .ok (.file file) => file.executable
  | _ => false

/-- The user's home directory: the one that a variable names, or else that of the account. An empty
variable names none, and without either it is the working directory. -/
def homeDirectory (w : World) : Path :=
  match w.home.filter (· ≠ "") with
  | some home => home
  | none => w.accountHome.getD ""

/-- A directory of the search path, a first component `~` being the home directory. -/
def expandHome (w : World) (directory : Path) : Path :=
  match directory.components with
  | .name ['~'] :: rest => w.homeDirectory.follow rest
  | _ => directory

/-- The first executable file of this name along the search path. -/
def findProgram (w : World) (name : String) : Option Path :=
  w.searchPath.bind fun text =>
    (((Path.ofSearchList text).map w.expandHome).map (·.join name)).find? w.isExecutable

/-- The longest argument that a program can be handed, in bytes. -/
def argumentLimit : Nat := 131071

/-- Start the program at a path. -/
def executeAt (w : World) (program : Path) (expression : String) : Except SystemError Reply := do
  match ← w.find program with
  | .file file =>
    if !file.executable then .error .permissionDenied
    else if argumentLimit < Text.byteCount expression.toList then .error .argumentTooLong
    else
      match file.program with
      | some run => .ok (run expression).reply
      | none => .error .notProgram
  | _ => .error .permissionDenied

/-- Start the first of the programs that can be started. One that is not there or may not be run
makes room for the next; a refusal of permission is what is reported in the end. -/
def executeFirst (w : World) (expression : String) (soFar : SystemError) :
    List Path → Except SystemError Reply
  | [] => .error soFar
  | program :: rest =>
    match w.executeAt program expression with
    | .ok reply => .ok reply
    | .error .permissionDenied => executeFirst w expression .permissionDenied rest
    | .error .notFound =>
      executeFirst w expression
        (if soFar = .permissionDenied then .permissionDenied else .notFound) rest
    | .error .notDirectory =>
      executeFirst w expression
        (if soFar = .permissionDenied then .permissionDenied else .notDirectory) rest
    | .error e => .error e

/-- Where programs are searched that are started by a bare name, without a search path. -/
def standardSearchPath : String := "/bin:/usr/bin"

/-- The beginning of a text that has just more bytes than the limit, or the text if it has no
more. -/
def cutBeyond (limit : Nat) : List Char → List Char
  | [] => []
  | c :: rest => if limit < c.utf8Size then [c] else c :: cutBeyond (limit - c.utf8Size) rest

/-- The file of a program that is searched in a directory; the empty path is the working
directory. -/
def programIn (directory program : Path) : Path :=
  if directory.isEmpty then program else ⟨directory.chars ++ '/' :: program.chars⟩

/-- The files that are tried for a program, the directories being those of a search path. In the
place of a directory that is too long the working directory is searched, unless it is the last
one. -/
def programFiles (program : Path) : List Path → List Path
  | [] => []
  | directory :: rest =>
    if Text.byteCount directory.chars ≤ pathLimit then
      programIn directory program :: programFiles program rest
    else if rest.isEmpty then []
    else program :: programFiles program rest

/-- Start a program with an expression. A name without a separator is searched along the search
path; one that is too long for a file is not told from longer ones. -/
def execute (w : World) (program : Path) (expression : String) : Except SystemError Reply :=
  if program.chars.contains '\x00' || expression.toList.contains '\x00' then
    .error .nulInArgument
  else if program.isEmpty then .error .notFound
  else if program.chars.contains '/' then w.executeAt program expression
  else
    w.executeFirst expression .notFound <|
      programFiles ⟨cutBeyond Tree.nameLimit program.chars⟩
        (Path.ofSearchList (w.searchPath.getD standardSearchPath))

end World

/-- The Python interpreter: the one that a variable names, or the first along the search path. -/
def findInterpreter (reader : Reader) : Run ProbeError Path := do
  match ← Run.readFilled reader "PYO3_PYTHON" with
  | some python => return python
  | none =>
    Run.look fun w =>
      match w.findProgram "python3" <|> w.findProgram "python" with
      | some python => .ok python
      | none => .error .interpreterNotFound

end ExtensionPlan
