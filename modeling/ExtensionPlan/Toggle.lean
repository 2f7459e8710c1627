import ExtensionPlan.PlanError

/-!
# Toggles

A toggle is set by a text. Read leniently, a few texts turn it on and everything else leaves it
off. Read strictly, a few texts turn it off as well and what is left is an error.
-/

namespace ExtensionPlan

/-- Whether an optional feature is wanted. -/
inductive Toggle where
  | enabled
  | disabled
  deriving DecidableEq, Repr, Inhabited

namespace Toggle

/-- Does the text turn a toggle on? Capitals make no difference, white space does. -/
def isOn (text : String) : Bool := ["on", "1", "true"].contains text.asciiLower

/-- Does the text turn a toggle off in so many words? -/
def isOff (text : String) : Bool := ["off", "0", "false"].contains text.asciiLower

/-- The toggle that the text sets; what is not understood leaves it off. -/
def parse (text : Option String) : Toggle :=
  if text.any isOn then .enabled else .disabled

/-- The toggle that the text sets, `key` being the variable it came from. No text and the empty
text leave it off; what is not understood is an error. -/
def parseStrict (key : String) (text : Option String) : Except PlanError Toggle :=
  match text with
  | none => .ok .disabled
  | some text =>
    if text = "" then .ok .disabled
    else if isOn text then .ok .enabled
    else if isOff text then .ok .disabled
    else .error (.rejected key text .notToggle)

/-- Is the feature wanted? -/
def isEnabled (toggle : Toggle) : Bool := toggle == .enabled

/-- The name of the state. -/
def name : Toggle → String
  | .enabled => "enabled"
  | .disabled => "disabled"

end Toggle

end ExtensionPlan
