import ExtensionPlan.Json.Reader

/-!
# Manifests

A manifest is a JSON object whose values are texts. It maps keys to locations; of two fields with
one name the later counts.
-/

namespace ExtensionPlan

/-- The fields of a manifest, in the order of the text. -/
structure Manifest where
  fields : List (String × String)
  deriving DecidableEq, Repr, Inhabited

namespace Manifest

/-- The field with a text as its value, if it is one. -/
def textField? : String × Json → Option (String × String)
  | (name, .text value) => some (name, value)
  | _ => none

/-- The manifest that a text is, if it is one. -/
def read (text : String) : Option Manifest :=
  match Json.read text.toList with
  | some (.object fields) => (fields.mapM textField?).map .mk
  | _ => none

/-- The value of a key. -/
def get? (manifest : Manifest) (key : String) : Option String :=
  manifest.fields.reverse.lookup key

end Manifest

end ExtensionPlan
