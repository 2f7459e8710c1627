import ExtensionPlan.Glob.Pattern
import ExtensionPlan.World

/-!
# Files that match a pattern

A pattern for paths is cut at its separators, and each component is matched against the names of
one directory. A component without a meta character is not matched but looked up, so that it may
also lead through a directory that holds a great many entries, or be `..`.

`World.glob` gives what is found in the order of the search: a directory's entries by name, and what
lies below an entry before the next one. A directory that cannot be listed is reported in the place
of its entries, and the search goes on. That happens to one whose path is too long to be looked up:
its entry in the directory around it tells that it is one, but it cannot be opened.
-/

namespace ExtensionPlan

namespace Glob

/-- One component of a pattern for paths. -/
inductive Segment where
  /-- The entry of this very name. -/
  | literal (name : List Char)
  /-- The entries whose names match. -/
  | wild (tokens : List Token)
  /-- Any number of directories, one inside the other. -/
  | everywhere
  deriving DecidableEq, Repr

/-- The character that a token stands for, if it stands for itself only. -/
def Token.char? : Token → Option Char
  | .char c => some c
  | _ => none

/-- The component with these tokens. -/
def Segment.ofTokens (tokens : List Token) : Segment :=
  if tokens.contains .anyDirectories then .everywhere
  else match tokens.mapM Token.char? with
    | some name => .literal name
    | none => .wild tokens

/-- Does the component match the name of an entry? -/
def Segment.accepts (segment : Segment) (name : FileName) : Bool :=
  match segment with
  | .literal text => text == name.chars
  | .wild tokens => covers tokens name.chars
  | .everywhere => true

/-- The components with runs of `everywhere` made one. -/
def collapse : List Segment → List Segment
  | .everywhere :: .everywhere :: rest => collapse (.everywhere :: rest)
  | segment :: rest => segment :: collapse rest
  | [] => []

/-- A pattern for paths. -/
structure PathPattern where
  segments : List Segment
  /-- Whether the pattern starts at the root. -/
  rooted : Bool
  /-- Whether only directories can match. -/
  directoriesOnly : Bool
  deriving Repr

/-- The pieces that each end at a separator or at the end of the text. -/
def componentsOf (text : List Char) : List (List Char) :=
  let pieces := Text.pieces (· == '/') text
  if pieces.getLast? = some [] then pieces.dropLast else pieces

/-- Read a pattern for paths. It has to be a pattern as a whole, and so has each component; a
class that holds a separator fails the second test only. -/
def PathPattern.read (text : List Char) : Except PatternError PathPattern := do
  let _ ← tokens text
  let rooted := text.head? == some '/'
  let rest := if rooted then text.drop 1 else text
  let components := if rest.isEmpty then [[]] else componentsOf rest
  let segments ← components.mapM fun component => return Segment.ofTokens (← tokens component)
  return ⟨collapse segments, rooted, text.getLast? == some '/'⟩

/-- A path on which the search has come, and whether it leads to a directory. -/
structure Reached where
  path : Path
  isDirectory : Bool
  deriving DecidableEq, Repr

/-- A directory that could not be listed. -/
structure Unlisted where
  path : Path
  cause : SystemError
  deriving DecidableEq, Repr

end Glob

open Glob

namespace World

/-- The directory is spelled `.` or in another way that means the same. -/
def isDot (p : Path) : Bool := p.same ⟨['.']⟩

/-- The path of an entry of a directory. The entries of `.` are spelled without it. -/
def entryPath (directory : Path) (name : Path) : Path :=
  if isDot directory then name else directory.join name

/-- Are the characters of the first name not above those of the second? -/
def nameLe (a b : FileName) : Bool :=
  Sorted.dictionaryLe Nat.ble (a.chars.map Char.toNat) (b.chars.map Char.toNat)

/-- What is reached by a path. -/
def reach (w : World) (p : Path) : Reached := ⟨p, w.isDirectory p⟩

/-- What is reached by the path of an entry. The entry itself tells whether it is a directory, and
only a link has to be followed. -/
def reachEntry (w : World) (p : Path) : Entry → Reached
  | .directory => ⟨p, true⟩
  | .file _ => ⟨p, false⟩
  | .link _ => w.reach p

/-- The entries of a directory, in the order of their names. -/
def listing (w : World) (directory : Path) : Except Unlisted (List (FileName × Reached)) :=
  match w.entriesIn directory with
  | .error cause => .error ⟨directory, cause⟩
  | .ok entries =>
    .ok <| (Sorted.ofList (fun a b => nameLe a.1 b.1) entries).map fun (name, entry) =>
      (name, w.reachEntry (entryPath directory name.path) entry)

/-- The entries below a directory, each before those below it, to the given depth. -/
def below (w : World) : Nat → Reached → List (Except Unlisted (FileName × Reached))
  | 0, _ => []
  | depth + 1, r =>
    if r.isDirectory then
      match w.listing r.path with
      | .error e => [.error e]
      | .ok entries => entries.flatMap fun entry => .ok entry :: below w depth entry.2
    else []

/-- The paths that the components lead to from what is reached. -/
def expand (w : World) (directoriesOnly : Bool) :
    List Segment → Reached → List (Except Unlisted Path)
  | [], r => if directoriesOnly && !r.isDirectory then [] else [.ok r.path]
  | .literal name :: rest, r =>
    let next := entryPath r.path ⟨name⟩
    let found :=
      if name = ['.'] ∨ name = ['.', '.'] then r.isDirectory else w.isPresent next
    if found then expand w directoriesOnly rest (w.reach next) else []
  | .wild tokens :: rest, r =>
    if r.isDirectory then
      match w.listing r.path with
      | .error e => [.error e]
      | .ok entries =>
        let special :=
          if tokens.head? = some (.char '.') then
            [['.', '.'], ['.']].filter (covers tokens)
          else []
        special.flatMap (fun name =>
            expand w directoriesOnly rest (w.reach (r.path.join ⟨name⟩))) ++
          entries.flatMap fun entry =>
            if covers tokens entry.1.chars then expand w directoriesOnly rest entry.2 else []
    else []
  | [.everywhere], r =>
    (w.below pathLimit r).filterMap fun
      | .ok entry => if entry.2.isDirectory then some (.ok entry.2.path) else none
      | .error e => some (.error e)
  | .everywhere :: segment :: rest, r =>
    (w.below pathLimit r).flatMap fun
      | .ok entry =>
        if segment.accepts entry.1 then expand w directoriesOnly rest entry.2 else []
      | .error e => [.error e]

/-- The paths that match the pattern, and the directories that could not be listed. -/
def glob (w : World) (pattern : List Char) :
    Except PatternError (List (Except Unlisted Path)) := do
  let pattern ← PathPattern.read pattern
  return w.expand pattern.directoriesOnly pattern.segments
    (w.reach (if pattern.rooted then ⟨['/']⟩ else ⟨['.']⟩))

end World

end ExtensionPlan
