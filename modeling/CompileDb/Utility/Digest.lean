import CompileDb.Utility.Report

/-!
# Digests

Utilities that make a short number or text of the octets of a file, by which files can be told apart.
-/

namespace CompileDb.Utility

open Host

/-! ## Sums -/

namespace Digest

abbrev Word := UInt32

def turnLeft (x n : Word) : Word := x <<< n ||| x >>> (32 - n)

def turnRight (x n : Word) : Word := x >>> n ||| x <<< (32 - n)

/-- The remainder of a polynomial, whose coefficients are bits, after one more bit. -/
def divideStep (remainder : Word) : Word :=
  if remainder >>> 31 = 1 then remainder <<< 1 ^^^ 0x04c11db7 else remainder <<< 1

def divide (remainder : Word) (octet : UInt8) : Word :=
  (List.range 8).foldl (fun r _ => divideStep r) (remainder ^^^ octet.toUInt32 <<< 24)

/-- The octets of a number in so many places, the lowest first. -/
def octetsOf (places n : Nat) : List UInt8 := (List.range places).map fun i => UInt8.ofNat (n / Nat.pow 256 i % 256)

/-- The sum that is a remainder of a division of polynomials. The length takes part in it. -/
def remainder (octets : List UInt8) : Nat :=
  let length := if octets.isEmpty then [] else octetsOf (Nat.toDigits 256 octets.length).length octets.length
  (~~~ (length.foldl divide (octets.foldl divide 0))).toNat

/-- The sum of 16 bits whose bits are turned before each octet. -/
def turnedSum (octets : List UInt8) : Nat :=
  octets.foldl (fun sum octet => (sum / 2 + sum % 2 * 32768 + octet.toNat) % 65536) 0

def plainSum (octets : List UInt8) : Nat :=
  let sum := octets.foldl (fun sum octet => sum + octet.toNat) 0 % 4294967296
  let folded := sum % 65536 + sum / 65536
  folded % 65536 + folded / 65536

/-! ## Digests -/

/-- The ways to make a digest. -/
inductive Kind where
  | md5
  | sha1
  | sha256
deriving DecidableEq, Repr

/-- A message up to a multiple of 64 octets. Its length in bits stands at the end. -/
def filled (k : Kind) (octets : List UInt8) : List UInt8 :=
  let size := octets.length
  let zeros := (119 - size % 64) % 64
  let bits := octetsOf 8 (8 * size)
  octets ++ 0x80 :: List.replicate zeros 0 ++ if k = .md5 then bits else bits.reverse

def words (k : Kind) : List UInt8 → List Word
  | a :: b :: c :: d :: rest =>
    let low := if k = .md5 then (d, c, b, a) else (a, b, c, d)
    (low.1.toUInt32 <<< 24 ||| low.2.1.toUInt32 <<< 16 ||| low.2.2.1.toUInt32 <<< 8 ||| low.2.2.2.toUInt32) ::
      words k rest
  | _ => []

def blocks (size : Nat) : Nat → List Word → List (List Word)
  | 0, _ => []
  | _, [] => []
  | fuel + 1, words => words.take size :: blocks size fuel (words.drop size)

/-- The state at the beginning. -/
def Kind.start : Kind → List Word
  | .md5 => [0x67452301, 0xefcdab89, 0x98badcfe, 0x10325476]
  | .sha1 => [0x67452301, 0xefcdab89, 0x98badcfe, 0x10325476, 0xc3d2e1f0]
  | .sha256 => [0x6a09e667, 0xbb67ae85, 0x3c6ef372, 0xa54ff53a, 0x510e527f, 0x9b05688c, 0x1f83d9ab, 0x5be0cd19]

/-- The constants of the rounds of `md5`. -/
def sines : Array Word :=
  #[0xd76aa478, 0xe8c7b756, 0x242070db, 0xc1bdceee, 0xf57c0faf, 0x4787c62a, 0xa8304613, 0xfd469501,
    0x698098d8, 0x8b44f7af, 0xffff5bb1, 0x895cd7be, 0x6b901122, 0xfd987193, 0xa679438e, 0x49b40821,
    0xf61e2562, 0xc040b340, 0x265e5a51, 0xe9b6c7aa, 0xd62f105d, 0x02441453, 0xd8a1e681, 0xe7d3fbc8,
    0x21e1cde6, 0xc33707d6, 0xf4d50d87, 0x455a14ed, 0xa9e3e905, 0xfcefa3f8, 0x676f02d9, 0x8d2a4c8a,
    0xfffa3942, 0x8771f681, 0x6d9d6122, 0xfde5380c, 0xa4beea44, 0x4bdecfa9, 0xf6bb4b60, 0xbebfbc70,
    0x289b7ec6, 0xeaa127fa, 0xd4ef3085, 0x04881d05, 0xd9d4d039, 0xe6db99e5, 0x1fa27cf8, 0xc4ac5665,
    0xf4292244, 0x432aff97, 0xab9423a7, 0xfc93a039, 0x655b59c3, 0x8f0ccc92, 0xffeff47d, 0x85845dd1,
    0x6fa87e4f, 0xfe2ce6e0, 0xa3014314, 0x4e0811a1, 0xf7537e82, 0xbd3af235, 0x2ad7d2bb, 0xeb86d391]

/-- The constants of the rounds of `sha256`. -/
def cubeRoots : Array Word :=
  #[0x428a2f98, 0x71374491, 0xb5c0fbcf, 0xe9b5dba5, 0x3956c25b, 0x59f111f1, 0x923f82a4, 0xab1c5ed5,
    0xd807aa98, 0x12835b01, 0x243185be, 0x550c7dc3, 0x72be5d74, 0x80deb1fe, 0x9bdc06a7, 0xc19bf174,
    0xe49b69c1, 0xefbe4786, 0x0fc19dc6, 0x240ca1cc, 0x2de92c6f, 0x4a7484aa, 0x5cb0a9dc, 0x76f988da,
    0x983e5152, 0xa831c66d, 0xb00327c8, 0xbf597fc7, 0xc6e00bf3, 0xd5a79147, 0x06ca6351, 0x14292967,
    0x27b70a85, 0x2e1b2138, 0x4d2c6dfc, 0x53380d13, 0x650a7354, 0x766a0abb, 0x81c2c92e, 0x92722c85,
    0xa2bfe8a1, 0xa81a664b, 0xc24b8b70, 0xc76c51a3, 0xd192e819, 0xd6990624, 0xf40e3585, 0x106aa070,
    0x19a4c116, 0x1e376c08, 0x2748774c, 0x34b0bcb5, 0x391c0cb3, 0x4ed8aa4a, 0x5b9cca4f, 0x682e6ff3,
    0x748f82ee, 0x78a5636f, 0x84c87814, 0x8cc70208, 0x90befffa, 0xa4506ceb, 0xbef9a3f7, 0xc67178f2]

/-- How far bits are turned in the rounds of `md5`. -/
def turns : Array Word := #[7, 12, 17, 22, 5, 9, 14, 20, 4, 11, 16, 23, 6, 10, 15, 21]

/-- One round of `md5`. -/
def roundMd5 (block : Array Word) (state : List Word) (i : Nat) : List Word :=
  match state with
  | [a, b, c, d] =>
    let (f, g) : Word × Nat :=
      if i < 16 then (b &&& c ||| ~~~b &&& d, i)
      else if i < 32 then (d &&& b ||| ~~~d &&& c, (5 * i + 1) % 16)
      else if i < 48 then (b ^^^ c ^^^ d, (3 * i + 5) % 16)
      else (c ^^^ (b ||| ~~~d), 7 * i % 16)
    let sum := f + a + sines.getD i 0 + block.getD g 0
    [d, b + turnLeft sum (turns.getD (i / 16 * 4 + i % 4) 0), b, c]
  | other => other

/-- More words from those of a block, of which each comes from earlier ones. -/
def extended (count : Nat) (next : Array Word → Nat → Word) (block : List Word) : Array Word :=
  (List.range count).foldl (fun all i => all.push (next all (i + 16))) block.toArray

/-- One round of `sha1`. -/
def roundSha1 (all : Array Word) (state : List Word) (i : Nat) : List Word :=
  match state with
  | [a, b, c, d, e] =>
    let (f, k) : Word × Word :=
      if i < 20 then (b &&& c ||| ~~~b &&& d, 0x5a827999)
      else if i < 40 then (b ^^^ c ^^^ d, 0x6ed9eba1)
      else if i < 60 then (b &&& c ||| b &&& d ||| c &&& d, 0x8f1bbcdc)
      else (b ^^^ c ^^^ d, 0xca62c1d6)
    [turnLeft a 5 + f + e + k + all.getD i 0, a, turnLeft b 30, c, d]
  | other => other

/-- One round of `sha256`. -/
def roundSha256 (all : Array Word) (state : List Word) (i : Nat) : List Word :=
  match state with
  | [a, b, c, d, e, f, g, h] =>
    let high := turnRight e 6 ^^^ turnRight e 11 ^^^ turnRight e 25
    let choice := e &&& f ^^^ ~~~e &&& g
    let first := h + high + choice + cubeRoots.getD i 0 + all.getD i 0
    let low := turnRight a 2 ^^^ turnRight a 13 ^^^ turnRight a 22
    let majority := a &&& b ^^^ a &&& c ^^^ b &&& c
    [first + low + majority, a, b, c, d + first, e, f, g]
  | other => other

/-- The state after a block. -/
def Kind.step (k : Kind) (state : List Word) (block : List Word) : List Word :=
  let after := match k with
    | .md5 => (List.range 64).foldl (roundMd5 block.toArray) state
    | .sha1 =>
      let all := extended 64 (fun w i =>
        turnLeft (w.getD (i - 3) 0 ^^^ w.getD (i - 8) 0 ^^^ w.getD (i - 14) 0 ^^^ w.getD (i - 16) 0) 1) block
      (List.range 80).foldl (roundSha1 all) state
    | .sha256 =>
      let all := extended 48 (fun w i =>
        let x := w.getD (i - 15) 0
        let y := w.getD (i - 2) 0
        w.getD (i - 16) 0 + (turnRight x 7 ^^^ turnRight x 18 ^^^ x >>> 3) + w.getD (i - 7) 0 +
          (turnRight y 17 ^^^ turnRight y 19 ^^^ y >>> 10)) block
      (List.range 64).foldl (roundSha256 all) state
  state.zipWith (· + ·) after

def hex (octet : UInt8) : List Char := [Nat.digitChar (octet.toNat / 16), Nat.digitChar (octet.toNat % 16)]

def Kind.digest (k : Kind) (octets : List UInt8) : String :=
  let all := words k (filled k octets)
  let state := (blocks 16 (all.length + 1) all).foldl k.step k.start
  let bytes := state.flatMap fun word =>
    let low := octetsOf 4 word.toNat
    if k = .md5 then low else low.reverse
  .ofList (bytes.flatMap hex)

/-- The name of a way as it stands before a digest. -/
def Kind.title : Kind → String
  | .md5 => "MD5"
  | .sha1 => "SHA1"
  | .sha256 => "SHA256"

/-- The number of digits of a digest. -/
def Kind.size (k : Kind) : Nat := 8 * k.start.length

/-! ## Comparing digests -/

/-- The digest and the name that a line holds. -/
def Kind.parseLine (k : Kind) (line : List Char) : Option (String × String) :=
  let digits := line.takeWhile fun c => c.isDigit || ('a' ≤ c.toLower && c.toLower ≤ 'f')
  match line.drop digits.length with
  | ' ' :: mark :: c :: name =>
    if digits.length = k.size && (mark = ' ' || mark = '*') then
      some (.ofList (digits.map Char.toLower), .ofList (c :: name))
    else none
  | _ => none

/-- How comparisons of digests went. -/
structure Tally where
  wrong : Nat
  unreadable : Nat
  malformed : Nat
  matching : Nat

def plural (n : Nat) (one many : String) : String := if n = 1 then one else many

def Tally.warnings (t : Tally) : List String :=
  (if t.malformed = 0 then []
    else [s!"WARNING: {t.malformed} " ++ plural t.malformed "line is" "lines are" ++ " improperly formatted"]) ++
  (if t.unreadable = 0 then []
    else [s!"WARNING: {t.unreadable} listed " ++ plural t.unreadable "file" "files" ++ " could not be read"]) ++
  (if t.wrong = 0 then []
    else [s!"WARNING: {t.wrong} computed " ++ plural t.wrong "checksum" "checksums" ++ " did NOT match"])

/-- What is asked for when digests are compared. -/
structure Strictness where
  /-- Nothing is said. -/
  silent : Bool
  /-- Nothing is said of what matches. -/
  quiet : Bool
  /-- Malformed lines are faults. -/
  strict : Bool

end Digest

open Digest in
/-- Compares the digests that a list of them names. The answer says whether all is well. -/
def compareDigests (k : Kind) (s : Strictness) (name operand : String) : Action Bool := do
  match ← readOperand operand with
  | .error r =>
    complain name s!"{operand}: {r.message}"
    return false
  | .ok text =>
    let mut tally : Tally := ⟨0, 0, 0, 0⟩
    for line in (Lines.ofText text).all do
      match k.parseLine line with
      | none => tally := { tally with malformed := tally.malformed + 1 }
      | some (digest, path) =>
        match ← readOperand path with
        | .error r =>
          complain name s!"{path}: {r.message}"
          tally := { tally with unreadable := tally.unreadable + 1 }
          if !s.silent then
            let _ ← write 1 s!"{path}: FAILED open or read\n".toList
        | .ok octets =>
          let isSame := k.digest (Text.narrow octets) = digest
          tally := if isSame then { tally with matching := tally.matching + 1 }
            else { tally with wrong := tally.wrong + 1 }
          let verdict := if isSame then "OK" else "FAILED"
          if !s.silent && !(s.quiet && isSame) then
            let _ ← write 1 s!"{path}: {verdict}\n".toList
    if tally.wrong + tally.unreadable + tally.matching = 0 then
      complain name s!"{operand}: no properly formatted checksum lines found"
      return false
    if !s.silent then
      for warning in tally.warnings do complain name warning
    return tally.wrong + tally.unreadable = 0 && !(s.strict && tally.malformed ≠ 0)

/-- Tells the digests of files, or compares them with those in lists. -/
def digestLines (k : Digest.Kind) (inv : Invocation) : Action Nat :=
  withOptions ⟨"bctwzqS", "", [("binary", 'b'), ("check", 'c'), ("text", 't'), ("warn", 'w'), ("zero", 'z'),
      ("quiet", 'q'), ("status", 'S'), ("strict", 's'), ("tag", 'T')]⟩ 1 inv fun options operands => do
    if has options 'c' then
      let strictness : Digest.Strictness := ⟨has options 'S', has options 'q', has options 's'⟩
      let verdicts ← (if operands.isEmpty then ["-"] else operands).mapM (compareDigests k strictness inv.name)
      return if verdicts.all id then 0 else 1
    else
      let ending := if has options 'z' then "\x00" else "\n"
      let mut status := 0
      for operand in if operands.isEmpty then ["-"] else operands do
        match ← readOperand operand with
        | .error r =>
          complain inv.name s!"{operand}: {r.message}"
          status := 1
        | .ok octets =>
          let digest := k.digest (Text.narrow octets)
          let mark := if has options 'b' then "*" else " "
          let line := if has options 'T' then s!"{k.title} ({operand}) = {digest}" else s!"{digest} {mark}{operand}"
          let _ ← write 1 (line ++ ending).toList
      return status

/-- Tells a line about each file: its sum as `shown` writes it from its octets, and its name if there is one. -/
def sumLines (inv : Invocation) (operands : List String) (shown : List UInt8 → String) : Action Nat := do
  let contents ← readOperands operands
  let mut status := 0
  for (operand, content) in contents do
    match content with
    | .error r =>
      complain inv.name s!"{operand}: {r.message}"
      status := 1
    | .ok octets =>
      let title := if operands.isEmpty then "" else s!" {operand}"
      let _ ← write 1 s!"{shown (Text.narrow octets)}{title}\n".toList
  return status

/-- Tells the remainders and the lengths of files. -/
def cksum (inv : Invocation) : Action Nat :=
  withOptions ⟨"", "", []⟩ 1 inv fun _ operands =>
    sumLines inv operands fun octets => s!"{Digest.remainder octets} {octets.length}"

/-- Tells the sums of files, and their lengths in blocks. -/
def blockSum (inv : Invocation) : Action Nat :=
  withOptions ⟨"rs", "", [("sysv", 's')]⟩ 1 inv fun options operands =>
    let isPlain := (options.getLast?.map Prod.fst) = some 's'
    sumLines inv operands fun octets =>
      if isPlain then s!"{Digest.plainSum octets} {(octets.length + 511) / 512}"
      else
        let filled (zero : Char) (width : Nat) (n : Nat) : String :=
          let digits := Nat.toDigits 10 n
          .ofList (List.replicate (width - digits.length) zero ++ digits)
        filled '0' 5 (Digest.turnedSum octets) ++ " " ++ filled ' ' 5 ((octets.length + 1023) / 1024)

end CompileDb.Utility
