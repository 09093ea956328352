/-!
# The words of a command text

Blanks separate words, a double quote opens or closes a region in which blanks are ordinary, and a backslash
takes the character after it as it stands, inside quotes and outside. Parts that touch form one word. Nothing is
refused: the end of the text closes an open quote, and a backslash at the very end is dropped.
-/

namespace CompileDb.Text

/-- The ranges of the Unicode property White_Space, by first and last code point. -/
def blankRanges : List (Nat × Nat) :=
  [(0x09, 0x0D), (0x20, 0x20), (0x85, 0x85), (0xA0, 0xA0), (0x1680, 0x1680), (0x2000, 0x200A), (0x2028, 0x2029),
    (0x202F, 0x202F), (0x205F, 0x205F), (0x3000, 0x3000)]

/-- Whether `c` has the property White_Space. -/
def isBlank (c : Char) : Bool :=
  blankRanges.any fun r => decide (r.1 ≤ c.toNat) && decide (c.toNat ≤ r.2)

@[simp] theorem isBlank_space : isBlank ' ' = true := by decide

end CompileDb.Text

namespace CompileDb.Words

/-- The words of `chars`. `word` is the word being read, last character first, if one has begun. -/
def scan (quoted : Bool) (word : Option (List Char)) : List Char → List (List Char)
  | [] => (word.map List.reverse).toList
  | '\\' :: [] => (word.map List.reverse).toList
  | '\\' :: c :: rest => scan quoted (some (c :: word.getD [])) rest
  | '"' :: rest => scan (!quoted) (some (word.getD [])) rest
  | c :: rest =>
    if !quoted && Text.isBlank c then (word.map List.reverse).toList ++ scan false none rest
    else scan quoted (some (c :: word.getD [])) rest

/-- The words of a command text. -/
def ofText (text : String) : List String :=
  (scan false none text.toList).map String.ofList

end CompileDb.Words
