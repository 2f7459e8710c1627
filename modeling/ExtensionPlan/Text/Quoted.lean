import ExtensionPlan.Text.Printable

/-!
# Quoted text

Messages show a value between double quotes with everything escaped that could be misread: the
quote and the backslash, the usual control characters by their letter, and every other character
that is not printable by its code point. A file path escapes the apostrophe as well.
-/

namespace ExtensionPlan.Text

/-- The digits of a number in base sixteen, small letters, no leading zero. -/
def hexDigits (n : Nat) : List Char := Nat.toDigits 16 n

/-- One character as it is written between double quotes. -/
def escape (c : Char) : List Char :=
  match c with
  | '\x00' => ['\\', '0']
  | '\t' => ['\\', 't']
  | '\r' => ['\\', 'r']
  | '\n' => ['\\', 'n']
  | '\\' => ['\\', '\\']
  | '"' => ['\\', '"']
  | c => if isPrintable c then [c] else ['\\', 'u', '{'] ++ hexDigits c.toNat ++ ['}']

/-- One character of a file path as it is written between double quotes. -/
def escapeInPath (c : Char) : List Char :=
  if c = '\'' then ['\\', '\''] else escape c

/-- The text between double quotes. -/
def quoted (s : String) : String :=
  .ofList ('"' :: s.toList.flatMap escape ++ ['"'])

/-- The text of a file path between double quotes. -/
def quotedPath (s : String) : String :=
  .ofList ('"' :: s.toList.flatMap escapeInPath ++ ['"'])

end ExtensionPlan.Text
