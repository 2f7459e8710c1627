import ExtensionPlan.Text.Blank

/-!
# Patterns for file names

A pattern is text in which `?` stands for one character, `*` for any number of them, `[…]` for
one of a class and `[!…]` for one outside it; `**` as a whole component of a path stands for any
number of directories. This module reads patterns (`Glob.tokens`), says which names match
(`Glob.covers`) and writes text so that only itself matches (`Glob.escape`).
-/

namespace ExtensionPlan.Glob

/-! ## Tokens -/

/-- A member of a class of characters. -/
inductive Member where
  | single (c : Char)
  /-- The characters from `first` to `last`, both included. -/
  | range (first last : Char)
  deriving DecidableEq, Repr

/-- What one part of a pattern stands for. -/
inductive Token where
  | char (c : Char)
  | anyChar
  | anySequence
  /-- Any number of directories. -/
  | anyDirectories
  | oneOf (members : List Member)
  | noneOf (members : List Member)
  deriving DecidableEq, Repr

/-- What is wrong with a pattern. -/
inductive Fault where
  /-- More than two stars in a row. -/
  | starRun
  /-- Two stars that are not a component of their own. -/
  | starsInComponent
  /-- A bracket that opens no class. -/
  | range
  deriving DecidableEq, Repr

/-- A fault and the number of characters before it. -/
structure PatternError where
  position : Nat
  fault : Fault
  deriving DecidableEq, Repr

/-- The wording of a pattern error. -/
def PatternError.message (e : PatternError) : String :=
  "Pattern syntax error near position " ++ toString e.position ++ ": " ++
    match e.fault with
    | .starRun => "wildcards are either regular `*` or recursive `**`"
    | .starsInComponent => "recursive wildcards must form a single path component"
    | .range => "invalid range pattern"

/-! ## Reading -/

/-- The members that the text between the brackets of a class lists. -/
def membersFrom : List Char → List Member
  | a :: '-' :: b :: rest => .range a b :: membersFrom rest
  | a :: rest => .single a :: membersFrom rest
  | [] => []

/-- The token for a star before which `previous` stands and after which `rest` comes, with the
number of characters of `rest` that belong to it. -/
def starToken (position : Nat) (previous : Option Char) (rest : List Char) :
    Except PatternError (Token × Nat) :=
  match rest with
  | '*' :: '*' :: _ => .error ⟨position + 2, .starRun⟩
  | '*' :: after =>
    if previous = none ∨ previous = some '/' then
      match after with
      | [] => .ok (.anyDirectories, 1)
      | '/' :: _ => .ok (.anyDirectories, 2)
      | _ => .error ⟨position + 2, .starsInComponent⟩
    else .error ⟨position - 1, .starsInComponent⟩
  | _ => .ok (.anySequence, 0)

/-- The token for an opening bracket after which `rest` comes, with the number of characters of
`rest` that belong to it. The first character of a class may be a closing bracket. -/
def bracketToken (position : Nat) (rest : List Char) : Except PatternError (Token × Nat) :=
  match rest with
  | '!' :: a :: others =>
    match others.idxOf? ']' with
    | some n => .ok (.noneOf (membersFrom (a :: others.take n)), n + 3)
    | none => .error ⟨position, .range⟩
  | '!' :: [] | [] => .error ⟨position, .range⟩
  | a :: others =>
    match others.idxOf? ']' with
    | some n => .ok (.oneOf (membersFrom (a :: others.take n)), n + 2)
    | none => .error ⟨position, .range⟩

/-- The token that begins with `c`, with the number of characters after `c` that belong to it. -/
def tokenAt (position : Nat) (previous : Option Char) (c : Char) (rest : List Char) :
    Except PatternError (Token × Nat) :=
  if c = '?' then .ok (.anyChar, 0)
  else if c = '*' then starToken position previous rest
  else if c = '[' then bracketToken position rest
  else .ok (.char c, 0)

/-- Read the pattern on from a position, after `skip` characters that were read already. -/
def tokensFrom (skip position : Nat) (previous : Option Char) :
    List Char → Except PatternError (List Token)
  | [] => .ok []
  | c :: rest =>
    match skip with
    | n + 1 => tokensFrom n (position + 1) (some c) rest
    | 0 => do
      let (token, used) ← tokenAt position previous c rest
      let tokens ← tokensFrom used (position + 1) (some c) rest
      return token :: tokens

/-- The tokens of a pattern. -/
def tokens (pattern : List Char) : Except PatternError (List Token) := tokensFrom 0 0 none pattern

/-! ## Matching -/

/-- Is the character one that the member stands for? -/
def Member.holds (c : Char) : Member → Bool
  | .single a => c == a
  | .range first last => first ≤ c && c ≤ last

/-- Does the token stand for the single character? -/
def Token.holds (c : Char) : Token → Bool
  | .char a => c == a
  | .anyChar => true
  | .oneOf members => members.any (·.holds c)
  | .noneOf members => !members.any (·.holds c)
  | .anySequence | .anyDirectories => false

/-- Does the token stand for any number of characters? -/
def Token.isSequence : Token → Bool
  | .anySequence | .anyDirectories => true
  | .char _ | .anyChar | .oneOf _ | .noneOf _ => false

/-- For each place of a list of answers, whether that one or a later one is yes. -/
def anyLater : List Bool → List Bool
  | [] => []
  | yes :: rest =>
    let later := anyLater rest
    (yes || later.headD false) :: later

/-- The answers for a token that stands for one character: at each ending of the name it takes the
first character and leaves the rest to `answers`, those for the tokens after it. -/
def afterOne (token : Token) : List Char → List Bool → List Bool
  | c :: name, _ :: answers =>
    (token.holds c && answers.headD false) :: afterOne token name answers
  | _, _ => [false]

/-- For each ending of the name, the whole name first and the empty one last, whether the tokens
stand for it. One answer is worked out for each token and ending, so stars cost no more than other
tokens. -/
def coverage (tokens : List Token) (name : List Char) : List Bool :=
  match tokens with
  | [] => name.map (fun _ => false) ++ [true]
  | token :: tokens =>
    if token.isSequence then anyLater (coverage tokens name)
    else afterOne token name (coverage tokens name)

/-- Do the tokens, one after the other, stand for the whole name? -/
def covers (tokens : List Token) (name : List Char) : Bool := (coverage tokens name).headD false

theorem coverage_nil (tokens : List Token) : coverage tokens [] = [covers tokens []] := by
  suffices h : ∃ yes, coverage tokens [] = [yes] by
    obtain ⟨yes, h⟩ := h
    rw [covers, h, List.headD_cons]
  induction tokens with
  | nil => exact ⟨true, rfl⟩
  | cons token tokens ih =>
    obtain ⟨yes, ih⟩ := ih
    rw [coverage, ih]
    split
    · exact ⟨_, rfl⟩
    · exact ⟨_, rfl⟩

/-- The answers for the endings of `name` are among those for the endings of `c :: name`. -/
theorem coverage_cons (tokens : List Token) (c : Char) (name : List Char) :
    coverage tokens (c :: name) = covers tokens (c :: name) :: coverage tokens name := by
  suffices h : ∃ yes, coverage tokens (c :: name) = yes :: coverage tokens name by
    obtain ⟨yes, h⟩ := h
    rw [covers, h, List.headD_cons]
  induction tokens with
  | nil => exact ⟨false, rfl⟩
  | cons token tokens ih =>
    obtain ⟨yes, ih⟩ := ih
    rw [coverage, coverage, ih]
    split
    · exact ⟨_, rfl⟩
    · exact ⟨_, rfl⟩

theorem covers_nil (name : List Char) : covers [] name = name.isEmpty := by
  cases name <;> rfl

/-- At the end of the name a token for any number of characters stands for none. -/
theorem covers_sequence_nil {token : Token} (sequence : token.isSequence = true)
    (tokens : List Token) : covers (token :: tokens) [] = covers tokens [] := by
  rw [covers, coverage, if_pos sequence, coverage_nil]
  exact Bool.or_false _

/-- A token for any number of characters takes none, or it takes one and goes on. -/
theorem covers_sequence_cons {token : Token} (sequence : token.isSequence = true)
    (tokens : List Token) (c : Char) (name : List Char) :
    covers (token :: tokens) (c :: name) =
      (covers tokens (c :: name) || covers (token :: tokens) name) := by
  have later : covers (token :: tokens) name = (anyLater (coverage tokens name)).headD false := by
    rw [covers, coverage, if_pos sequence]
  rw [covers, coverage, if_pos sequence, coverage_cons, later]
  rfl

/-- At the end of the name there is nothing for a token for one character. -/
theorem covers_single_nil {token : Token} (single : token.isSequence = false)
    (tokens : List Token) : covers (token :: tokens) [] = false := by
  rw [covers, coverage, if_neg (Bool.eq_false_iff.1 single)]
  rfl

/-- A token for one character takes it and leaves the rest to the others. -/
theorem covers_single_cons {token : Token} (single : token.isSequence = false)
    (tokens : List Token) (c : Char) (name : List Char) :
    covers (token :: tokens) (c :: name) = (token.holds c && covers tokens name) := by
  rw [covers, coverage, if_neg (Bool.eq_false_iff.1 single), coverage_cons]
  rfl

/-! ## Escaping -/

/-- Has the character a meaning of its own in patterns? -/
def isMeta (c : Char) : Bool := c == '?' || c == '*' || c == '[' || c == ']'

/-- The pattern that only the character matches. -/
def escapeChar (c : Char) : List Char := if isMeta c then ['[', c, ']'] else [c]

/-- The pattern that only the text matches. -/
def escape (text : List Char) : List Char := text.flatMap escapeChar

end ExtensionPlan.Glob
