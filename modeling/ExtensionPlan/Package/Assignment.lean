import ExtensionPlan.FlagSet

/-!
# Assignments in package files

A package file may assign flags to a variable, in the form `set(NAME "value")` with white space
allowed around the name and before the closing parenthesis. The text is searched from the left for
such assignments, none overlapping another, and the last one counts. Nothing else of the file's
language is looked at: a comment is text like any other.
-/

namespace ExtensionPlan.Assignment

/-- The text after `mark`, if the text begins with it. -/
def after? (mark : List Char) (cs : List Char) : Option (List Char) :=
  if mark.isPrefixOf cs then some (cs.drop mark.length) else none

/-- What `next` makes of the text after some white space, as much of it as possible. -/
def afterBlanks {α : Type} (next : List Char → Option α) : List Char → Option α
  | [] => next []
  | c :: rest =>
    if Text.isBlank c then afterBlanks next rest <|> next (c :: rest) else next (c :: rest)

/-- The value and the length of what begins with the name of the variable. -/
def nameAndValue? (name : List Char) (cs : List Char) : Option (List Char × List Char) := do
  let cs ← after? name cs
  let cs ← if cs.head?.any Text.isBlank then some (cs.dropWhile Text.isBlank) else none
  let cs ← after? ['"'] cs
  let value := cs.takeWhile (· != '"')
  let cs ← after? ['"'] (cs.dropWhile (· != '"'))
  let cs ← after? [')'] (cs.dropWhile Text.isBlank)
  return (value, cs)

/-- The value of the assignment that the text begins with, and the text after it. -/
def at? (name : List Char) (cs : List Char) : Option (List Char × List Char) := do
  let cs ← after? "set(".toList cs
  afterBlanks (nameAndValue? name) cs

/-- The value of the last assignment in the text from the position after `skip` characters on, or
`latest` if there is none. -/
def lastFrom (name : List Char) (skip : Nat) (latest : Option (List Char)) :
    List Char → Option (List Char)
  | [] => latest
  | c :: rest =>
    match skip with
    | n + 1 => lastFrom name n latest rest
    | 0 =>
      match at? name (c :: rest) with
      | some (value, after) => lastFrom name (rest.length - after.length) (some value) rest
      | none => lastFrom name 0 latest rest

/-- The value that the text assigns to the variable last. -/
def last? (name text : String) : Option String :=
  (lastFrom name.toList 0 none text.toList).map .ofList

/-- The flags that the text assigns to the variable. -/
def flags (name text : String) : FlagSet := ((last? name text).map FlagSet.parse).getD ∅

end ExtensionPlan.Assignment
