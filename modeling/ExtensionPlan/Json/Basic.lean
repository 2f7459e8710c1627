import ExtensionPlan.Text.Quoted

/-!
# JSON documents

The documents that are read and written here hold texts, truth values, lists and objects, and no
numbers. An object keeps its fields in order. One function writes documents; a `Layout` says what
stands between the parts, so that the spread-out and the one-line form differ in nothing else.
-/

namespace ExtensionPlan

/-- A document without numbers. -/
inductive Json where
  | null
  | bool (value : Bool)
  | text (value : String)
  | list (items : List Json)
  | object (fields : List (String × Json))
  deriving Inhabited

namespace Json

/-! ## Making documents -/

/-- The document of a path is its spelling. -/
def ofTexts (texts : List String) : Json := .list (texts.map .text)

/-- The document of a value that may be missing. -/
def ofOption {α : Type} (document : α → Json) : Option α → Json
  | some a => document a
  | none => .null

/-! ## Writing -/

/-- What stands between the parts of a document. -/
structure Layout where
  /-- What stands before a part at a depth. -/
  gap : Nat → List Char
  /-- What stands between the name of a field and its value. -/
  colon : List Char

/-- Everything on one line, without spaces. -/
def Layout.compact : Layout := ⟨fun _ => [], [':']⟩

/-- Every part on a line of its own, two spaces deeper than the part around it. -/
def Layout.pretty : Layout :=
  ⟨fun depth => '\n' :: List.replicate (2 * depth) ' ', [':', ' ']⟩

/-- One character of a text as it is written in a document. -/
def escape (c : Char) : List Char :=
  if c = '"' then ['\\', '"']
  else if c = '\\' then ['\\', '\\']
  else if c = '\x08' then ['\\', 'b']
  else if c = '\t' then ['\\', 't']
  else if c = '\n' then ['\\', 'n']
  else if c = '\x0c' then ['\\', 'f']
  else if c = '\r' then ['\\', 'r']
  else if c.toNat < 0x20 then
    ['\\', 'u', '0', '0', Nat.digitChar (c.toNat / 16), Nat.digitChar (c.toNat % 16)]
  else [c]

/-- A text as it is written in a document. -/
def writeText (text : String) : List Char := '"' :: text.toList.flatMap escape ++ ['"']

mutual

/-- A document as text, at a depth. -/
def write (layout : Layout) (depth : Nat) : Json → List Char
  | .null => "null".toList
  | .bool true => "true".toList
  | .bool false => "false".toList
  | .text value => writeText value
  | .list [] => ['[', ']']
  | .list (item :: items) =>
    '[' :: layout.gap (depth + 1) ++ write layout (depth + 1) item ++
      writeItems layout (depth + 1) items ++ layout.gap depth ++ [']']
  | .object [] => ['{', '}']
  | .object ((name, value) :: fields) =>
    '{' :: layout.gap (depth + 1) ++ writeText name ++ layout.colon ++
      write layout (depth + 1) value ++ writeFields layout (depth + 1) fields ++
      layout.gap depth ++ ['}']

/-- The items of a list after the first. -/
def writeItems (layout : Layout) (depth : Nat) : List Json → List Char
  | [] => []
  | item :: items =>
    ',' :: layout.gap depth ++ write layout depth item ++ writeItems layout depth items

/-- The fields of an object after the first. -/
def writeFields (layout : Layout) (depth : Nat) : List (String × Json) → List Char
  | [] => []
  | (name, value) :: fields =>
    ',' :: layout.gap depth ++ writeText name ++ layout.colon ++ write layout depth value ++
      writeFields layout depth fields

end

/-- The document on one line. -/
def compact (document : Json) : String := .ofList (document.write .compact 0)

/-- The document spread over lines. -/
def pretty (document : Json) : String := .ofList (document.write .pretty 0)

end Json

end ExtensionPlan
