import ExtensionPlan.Text.Utf8

/-!
# Programs

An installed program is known by what it does with an expression: the bytes that it writes and
how it ends. A `Rule` list describes one by the expressions that it recognises.
-/

namespace ExtensionPlan

/-- What was captured from a program that ran to its end. `status` is its exit code, or nothing
if a signal killed it. -/
structure Captured where
  status : Option Int
  stdout : List UInt8
  stderr : List UInt8
  deriving DecidableEq, Repr, Inhabited

/-- What a program does with an expression. -/
abbrev Program := String → Captured

/-- What a program does with the expressions that contain `needle`. -/
structure Rule where
  needle : String
  captured : Captured
  deriving Repr

/-- Does `needle` occur in the text? -/
def Text.contains (needle : List Char) : List Char → Bool
  | [] => needle.isEmpty
  | c :: rest => needle.isPrefixOf (c :: rest) || contains needle rest

/-- The program that follows the first rule whose needle occurs in the expression, and is silent
if there is none. -/
def Program.ofRules (rules : List Rule) : Program := fun expression =>
  match rules.find? fun rule => Text.contains rule.needle.toList expression.toList with
  | some rule => rule.captured
  | none => ⟨some 0, [], []⟩

/-- What an interpreter answered to an expression, as text. -/
structure Reply where
  status : Option Int
  stdout : String
  stderr : String
  deriving DecidableEq, Repr, Inhabited

/-- The answer that was captured, with replacement characters where the bytes are no text. -/
def Captured.reply (captured : Captured) : Reply where
  status := captured.status
  stdout := Text.Utf8.textWithReplacements captured.stdout
  stderr := Text.Utf8.textWithReplacements captured.stderr

end ExtensionPlan
