import ExtensionPlan.Json.Basic

/-!
# Reading JSON documents

The reader accepts the texts of the JSON grammar that hold no number, and nothing else: no comma
too many, no character below the space inside a text, no half of a surrogate pair, nothing but
white space around the document.
-/

namespace ExtensionPlan.Json

/-- White space of JSON. -/
def isSpace (c : Char) : Bool := c == ' ' || c == '\t' || c == '\n' || c == '\r'

/-- The text from the next character on that is not white space. -/
def skipSpace (cs : List Char) : List Char := cs.dropWhile isSpace

/-- The value of a digit in base sixteen. -/
def hexDigit? (c : Char) : Option Nat :=
  if '0' ≤ c ∧ c ≤ '9' then some (c.toNat - '0'.toNat)
  else if 'a' ≤ c ∧ c ≤ 'f' then some (c.toNat - 'a'.toNat + 10)
  else if 'A' ≤ c ∧ c ≤ 'F' then some (c.toNat - 'A'.toNat + 10)
  else none

/-- The number that four digits in base sixteen make. -/
def hexNumber? (a b c d : Char) : Option Nat := do
  return (((← hexDigit? a) * 16 + (← hexDigit? b)) * 16 + (← hexDigit? c)) * 16 + (← hexDigit? d)

/-- The character that begins with the UTF-16 unit `unit`, with the number of characters of
`rest` that belong to it. The first half of a pair needs the second after it. -/
def unitChar? (unit : Nat) (rest : List Char) : Option (Char × Nat) :=
  if 0xDC00 ≤ unit ∧ unit ≤ 0xDFFF then none
  else if 0xD800 ≤ unit ∧ unit ≤ 0xDBFF then
    match rest with
    | '\\' :: 'u' :: a :: b :: c :: d :: _ => do
      let second ← hexNumber? a b c d
      if 0xDC00 ≤ second ∧ second ≤ 0xDFFF then
        some (.ofNat (0x10000 + (unit - 0xD800) * 0x400 + (second - 0xDC00)), 6)
      else none
    | _ => none
  else some (.ofNat unit, 0)

/-- The character that a backslash and the text after it spell, with the number of characters
after the backslash that belong to it. -/
def escaped? : List Char → Option (Char × Nat)
  | '"' :: _ => some ('"', 1)
  | '\\' :: _ => some ('\\', 1)
  | '/' :: _ => some ('/', 1)
  | 'b' :: _ => some ('\x08', 1)
  | 'f' :: _ => some ('\x0c', 1)
  | 'n' :: _ => some ('\n', 1)
  | 'r' :: _ => some ('\r', 1)
  | 't' :: _ => some ('\t', 1)
  | 'u' :: a :: b :: c :: d :: rest => do
    let (char, used) ← unitChar? (← hexNumber? a b c d) rest
    return (char, used + 5)
  | _ => none

/-- Read a text up to its closing quote, after `skip` characters that were read already. -/
def readTextFrom (skip : Nat) : List Char → Option (List Char × List Char)
  | [] => none
  | c :: rest =>
    match skip with
    | n + 1 => readTextFrom n rest
    | 0 =>
      if c = '"' then some ([], rest)
      else if c = '\\' then
        match escaped? rest with
        | some (char, used) => (readTextFrom used rest).map fun (cs, rest) => (char :: cs, rest)
        | none => none
      else if c.toNat < 0x20 then none
      else (readTextFrom 0 rest).map fun (cs, rest) => (c :: cs, rest)

/-- Read the name of a field and the colon after it. -/
def readName (cs : List Char) : Option (String × List Char) :=
  match skipSpace cs with
  | '"' :: rest => do
    let (name, rest) ← readTextFrom 0 rest
    match skipSpace rest with
    | ':' :: rest => some (.ofList name, rest)
    | _ => none
  | _ => none

mutual

/-- Read a document, white space before it included. Every call takes one off `fuel`. -/
def readValue (fuel : Nat) (cs : List Char) : Option (Json × List Char) :=
  match fuel with
  | 0 => none
  | fuel + 1 =>
    match skipSpace cs with
    | 'n' :: 'u' :: 'l' :: 'l' :: rest => some (.null, rest)
    | 't' :: 'r' :: 'u' :: 'e' :: rest => some (.bool true, rest)
    | 'f' :: 'a' :: 'l' :: 's' :: 'e' :: rest => some (.bool false, rest)
    | '"' :: rest => (readTextFrom 0 rest).map fun (value, rest) => (.text (.ofList value), rest)
    | '[' :: rest =>
      match skipSpace rest with
      | ']' :: rest => some (.list [], rest)
      | rest => do
        let (item, rest) ← readValue fuel rest
        let (items, rest) ← readItems fuel rest
        return (.list (item :: items), rest)
    | '{' :: rest =>
      match skipSpace rest with
      | '}' :: rest => some (.object [], rest)
      | rest => do
        let (name, rest) ← readName rest
        let (value, rest) ← readValue fuel rest
        let (fields, rest) ← readFields fuel rest
        return (.object ((name, value) :: fields), rest)
    | _ => none

/-- Read the items of a list after the first, and its end. -/
def readItems (fuel : Nat) (cs : List Char) : Option (List Json × List Char) :=
  match fuel with
  | 0 => none
  | fuel + 1 =>
    match skipSpace cs with
    | ']' :: rest => some ([], rest)
    | ',' :: rest => do
      let (item, rest) ← readValue fuel rest
      let (items, rest) ← readItems fuel rest
      return (item :: items, rest)
    | _ => none

/-- Read the fields of an object after the first, and its end. -/
def readFields (fuel : Nat) (cs : List Char) : Option (List (String × Json) × List Char) :=
  match fuel with
  | 0 => none
  | fuel + 1 =>
    match skipSpace cs with
    | '}' :: rest => some ([], rest)
    | ',' :: rest => do
      let (name, rest) ← readName rest
      let (value, rest) ← readValue fuel rest
      let (fields, rest) ← readFields fuel rest
      return ((name, value) :: fields, rest)
    | _ => none

end

/-- The document that a text is, if it is one. -/
def read (cs : List Char) : Option Json :=
  match readValue (cs.length + 1) cs with
  | some (document, rest) => if (skipSpace rest).isEmpty then some document else none
  | none => none

end ExtensionPlan.Json
