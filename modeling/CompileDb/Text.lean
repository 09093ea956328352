/-!
# Texts

Texts as bytes and back, and as programs see them. Decoding reads one byte at a time: a byte either
continues the character that is begun, or it ends an ill-formed part and is read afresh. An ill-formed part is the
longest beginning of a character that some text could continue, or a single byte that begins none.
-/

namespace CompileDb.Text

/-! ## Encoding -/

/-- The bytes of a character. -/
def encodeChar (c : Char) : List UInt8 :=
  let n := c.toNat
  if n < 0x80 then [n.toUInt8]
  else if n < 0x800 then [(0xC0 + n / 0x40).toUInt8, (0x80 + n % 0x40).toUInt8]
  else if n < 0x10000 then
    [(0xE0 + n / 0x1000).toUInt8, (0x80 + n / 0x40 % 0x40).toUInt8, (0x80 + n % 0x40).toUInt8]
  else
    [(0xF0 + n / 0x40000).toUInt8, (0x80 + n / 0x1000 % 0x40).toUInt8, (0x80 + n / 0x40 % 0x40).toUInt8,
      (0x80 + n % 0x40).toUInt8]

/-- The bytes of a text. -/
def encode (text : String) : List UInt8 :=
  text.toList.flatMap encodeChar

/-! ## Decoding -/

/-- The part of a character that has been read. -/
inductive Begun where
  | nothing
  /-- `left` bytes are missing, the next one between `low` and `high`; `value` holds the bits so far. -/
  | char (left low high value : Nat)
deriving DecidableEq, Repr

/-- A byte where no character is begun: what it completes, a character or an ill-formed part, and what it begins. -/
def firstByte (b : Nat) : List (Option Char) × Begun :=
  if b < 0x80 then ([some (Char.ofNat b)], .nothing)
  else if b < 0xC2 then ([none], .nothing)
  else if b < 0xE0 then ([], .char 1 0x80 0xBF (b - 0xC0))
  else if b < 0xF0 then
    ([], .char 2 (if b = 0xE0 then 0xA0 else 0x80) (if b = 0xED then 0x9F else 0xBF) (b - 0xE0))
  else if b < 0xF5 then
    ([], .char 3 (if b = 0xF0 then 0x90 else 0x80) (if b = 0xF4 then 0x8F else 0xBF) (b - 0xF0))
  else ([none], .nothing)

/-- A byte after what is begun. -/
def nextByte (begun : Begun) (b : Nat) : List (Option Char) × Begun :=
  match begun with
  | .nothing => firstByte b
  | .char left low high value =>
    if low ≤ b ∧ b ≤ high then
      let value := 0x40 * value + (b - 0x80)
      if left ≤ 1 then ([some (Char.ofNat value)], .nothing) else ([], .char (left - 1) 0x80 0xBF value)
    else
      let (parts, begun) := firstByte b
      (none :: parts, begun)

/-- What the end of the bytes completes. -/
def Begun.finish : Begun → List (Option Char)
  | nothing => []
  | char .. => [none]

/-- The parts read so far, last one first, and what is begun. -/
structure Decoder where
  parts : List (Option Char)
  begun : Begun

/-- Takes one more byte. -/
def Decoder.push (d : Decoder) (b : UInt8) : Decoder :=
  let (parts, begun) := nextByte d.begun b.toNat
  ⟨parts.reverse ++ d.parts, begun⟩

/-- The characters of the bytes, with nothing in place of each ill-formed part. -/
def decodeParts (bytes : List UInt8) : List (Option Char) :=
  let d := bytes.foldl Decoder.push ⟨[], .nothing⟩
  (d.begun.finish ++ d.parts).reverse

/-- The text of the bytes, with U+FFFD in place of each ill-formed part. -/
def decodeLossy (bytes : List UInt8) : String :=
  String.ofList ((decodeParts bytes).map (·.getD '\ufffd'))

/-- The text of the bytes, if no part of them is ill-formed. -/
def decode? (bytes : List UInt8) : Option String :=
  let parts := decodeParts bytes
  if parts.all Option.isSome then some (String.ofList (parts.filterMap id)) else none

/-! ## Octets -/

/-- Bytes, one character for each. -/
def widen (bytes : List UInt8) : List Char := bytes.map fun b => Char.ofNat b.toNat

/-- The bytes that characters stand for. -/
def narrow (octets : List Char) : List UInt8 := octets.map fun c => c.toNat.toUInt8

/-- A text as programs see it. -/
def octets (text : String) : String := .ofList (widen (encode text))

/-- The text that programs see as these octets. -/
def ofOctets (octets : String) : String := decodeLossy (narrow octets.toList)

/-! ## Search -/

/-- The part occurs somewhere in the text. -/
def occursIn (part text : List Char) : Bool :=
  @decide (part <:+: text) (List.instDecidableIsInfixOfDecidableEq part text)

/-- A part occurs iff it stands somewhere inside. -/
theorem occursIn_iff {part text : List Char} : occursIn part text = true ↔ part <:+: text :=
  @decide_eq_true_iff _ (List.instDecidableIsInfixOfDecidableEq part text)

end CompileDb.Text
