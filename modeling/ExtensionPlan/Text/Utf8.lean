/-!
# Reading UTF-8

Bytes are read as a list of characters and faults. A fault is a longest run of bytes that begins
a character but does not go on as one: what a reader that puts one replacement character per
fault has to know, and a reader that refuses the bytes as well. What is written for a text
(`encode`) is read without a fault.
-/

namespace ExtensionPlan.Text.Utf8

/-- Is the byte one of those that continue a character? -/
def isTail (b : UInt8) : Bool := 0x80 ≤ b && b ≤ 0xBF

/-- May `b` follow the first byte `a`? Some first bytes admit fewer second ones, so that no
character has two spellings, none is a surrogate and none lies above U+10FFFF. -/
def isSecond (a b : UInt8) : Bool :=
  if a == 0xE0 then 0xA0 ≤ b && b ≤ 0xBF
  else if a == 0xED then 0x80 ≤ b && b ≤ 0x9F
  else if a == 0xF0 then 0x90 ≤ b && b ≤ 0xBF
  else if a == 0xF4 then 0x80 ≤ b && b ≤ 0x8F
  else isTail b

/-- The low six bits of a byte, which are what a continuation byte carries. -/
def payload (b : UInt8) : Nat := b.toNat % 64

/-- What the bytes that begin with `a` begin with: a character or a fault, and how many bytes
after `a` belong to it. -/
def first (a : UInt8) (rest : List UInt8) : Option Char × Nat :=
  if a < 0x80 then (some (.ofNat a.toNat), 0)
  else if 0xC2 ≤ a && a ≤ 0xDF then
    match rest with
    | b :: _ => if isTail b then (some (.ofNat (a.toNat % 32 * 64 + payload b)), 1) else (none, 0)
    | [] => (none, 0)
  else if 0xE0 ≤ a && a ≤ 0xEF then
    match rest with
    | b :: c :: _ =>
      if !isSecond a b then (none, 0)
      else if !isTail c then (none, 1)
      else (some (.ofNat ((a.toNat % 16 * 64 + payload b) * 64 + payload c)), 2)
    | [b] => (none, if isSecond a b then 1 else 0)
    | [] => (none, 0)
  else if 0xF0 ≤ a && a ≤ 0xF4 then
    match rest with
    | b :: c :: d :: _ =>
      if !isSecond a b then (none, 0)
      else if !isTail c then (none, 1)
      else if !isTail d then (none, 2)
      else
        (some (.ofNat (((a.toNat % 8 * 64 + payload b) * 64 + payload c) * 64 + payload d)), 3)
    | [b, c] => (none, if isSecond a b then (if isTail c then 2 else 1) else 0)
    | [b] => (none, if isSecond a b then 1 else 0)
    | [] => (none, 0)
  else (none, 0)

/-- Read on after `skip` bytes that belong to what was read before. -/
def readFrom (skip : Nat) : List UInt8 → List (Option Char)
  | [] => []
  | a :: rest =>
    match skip with
    | n + 1 => readFrom n rest
    | 0 => (first a rest).1 :: readFrom (first a rest).2 rest

/-- The characters and faults of the bytes. -/
def read (bytes : List UInt8) : List (Option Char) := readFrom 0 bytes

/-- The text that the bytes spell, if they hold no fault. -/
def text? (bytes : List UInt8) : Option String :=
  ((read bytes).mapM id).map .ofList

/-- The text that the bytes spell, with a replacement character for each fault. -/
def textWithReplacements (bytes : List UInt8) : String :=
  .ofList ((read bytes).map (·.getD '\uFFFD'))

/-- The bytes that spell the characters. -/
def encode (text : List Char) : List UInt8 := text.flatMap String.utf8EncodeChar

end ExtensionPlan.Text.Utf8
