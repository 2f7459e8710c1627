import ExtensionPlan.Path.Basic
import ExtensionPlan.Text.Utf8

/-!
# Paths that are no text

To a file system a path is octets, of which only the separator and the dot mean something. Variables
and the answers of locators are texts, and so are the paths that come from them: a `Path` is one of
these. What a caller hands over without going through a text may be any octets (`OctetPath`). Such a
path has the components that its octets have, but it is shown as a text, with replacement characters
for what is none, so that different paths may be shown alike.

* `OctetPath.ofPath` — the path that a text spells;
* `OctetPath.shown` — the text by which a path is shown;
* `OctetPath.spelling` — the path with a character for each octet, on which components are read.
-/

namespace ExtensionPlan

/-- A file path as the file system has it. -/
structure OctetPath where
  octets : List UInt8
  deriving DecidableEq, Repr

namespace OctetPath

/-- The path that is spelled by a text. -/
def ofPath (p : Path) : OctetPath := ⟨Text.Utf8.encode p.chars⟩

/-- Some text spells the path. -/
def IsText (p : OctetPath) : Prop := ∃ q, p = ofPath q

/-- The text by which the path is shown. -/
def shown (p : OctetPath) : Path := .ofString (Text.Utf8.textWithReplacements p.octets)

/-- The text that spells the path, if there is one. No other text can than the one by which the path
is shown. -/
def path? (p : OctetPath) : Option Path := if ofPath p.shown = p then some p.shown else none

/-! ## Meaning -/

/-- The character of the same number as an octet. -/
def character (octet : UInt8) : Char := .ofNat octet.toNat

/-- The path with a character for each octet. Its separators and dots are those of the octets. -/
def spelling (p : OctetPath) : Path := ⟨p.octets.map character⟩

/-- Does the path begin at the root? -/
def isAbsolute (p : OctetPath) : Bool := p.spelling.isAbsolute

/-- Do the two mean the same path? -/
def same (p q : OctetPath) : Bool := p.spelling.same q.spelling

/-- The path of `q` seen from `p`: `q` itself if it begins at the root. -/
def join (p q : OctetPath) : OctetPath :=
  if q.isAbsolute then q
  else if p.octets.isEmpty || p.octets.getLast? == some 0x2F then ⟨p.octets ++ q.octets⟩
  else ⟨p.octets ++ 0x2F :: q.octets⟩

/-! ## Lists of paths -/

/-- The list with `p` at the end, unless a path of its meaning is there already. -/
def register (ps : List OctetPath) (p : OctetPath) : List OctetPath :=
  if ps.any fun q => q.same p then ps else ps ++ [p]

end OctetPath

end ExtensionPlan
