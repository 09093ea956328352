import CompileDb.Text

/-!
# Encoded text is decoded again

The bytes of a text decode to that text, with no ill-formed part among them.
-/

namespace CompileDb.Text

/-- The number of a character is no surrogate and not too large. -/
theorem toNat_valid (c : Char) : c.toNat < 0xD800 ∨ 0xDFFF < c.toNat ∧ c.toNat < 0x110000 :=
  c.valid

theorem push_toUInt8 (d : Decoder) {n : Nat} (small : n < 0x100) :
    d.push n.toUInt8 = ⟨(nextByte d.begun n).1.reverse ++ d.parts, (nextByte d.begun n).2⟩ := by
  have value : n.toUInt8.toNat = n := by
    rw [Nat.toUInt8, UInt8.toNat_ofNat', Nat.mod_eq_of_lt small]
  rw [Decoder.push, value]

section

variable (parts : List (Option Char)) {k left low high value : Nat}

theorem push_one (inside : k < 0x80) :
    (Decoder.mk parts .nothing).push k.toUInt8 = ⟨some (Char.ofNat k) :: parts, .nothing⟩ := by
  rw [push_toUInt8 _ (by omega)]
  simp [nextByte, firstByte, inside]

/-- The first byte of a two-byte sequence. -/
theorem push_two (inside : 2 ≤ k ∧ k < 0x20) :
    (Decoder.mk parts .nothing).push (0xC0 + k).toUInt8 = ⟨parts, .char 1 0x80 0xBF k⟩ := by
  have first : firstByte (0xC0 + k) = ([], .char 1 0x80 0xBF k) := by
    rw [firstByte, if_neg (by omega), if_neg (by omega), if_pos (by omega), Nat.add_sub_cancel_left]
  rw [push_toUInt8 _ (by omega)]
  simp [nextByte, first]

/-- The first byte of a three-byte sequence; it narrows the second byte's range. -/
theorem push_three (inside : k < 0x10) :
    (Decoder.mk parts .nothing).push (0xE0 + k).toUInt8 =
      ⟨parts, .char 2 (if k = 0 then 0xA0 else 0x80) (if k = 0xD then 0x9F else 0xBF) k⟩ := by
  have first : firstByte (0xE0 + k) =
      ([], .char 2 (if k = 0 then 0xA0 else 0x80) (if k = 0xD then 0x9F else 0xBF) k) := by
    rw [firstByte, if_neg (by omega), if_neg (by omega), if_neg (by omega), if_pos (by omega),
      Nat.add_sub_cancel_left]
    simp [show 0xE0 + k = 0xED ↔ k = 0xD by omega]
  rw [push_toUInt8 _ (by omega)]
  simp [nextByte, first]

/-- The first byte of a four-byte sequence; it narrows the second byte's range. -/
theorem push_four (inside : k < 5) :
    (Decoder.mk parts .nothing).push (0xF0 + k).toUInt8 =
      ⟨parts, .char 3 (if k = 0 then 0x90 else 0x80) (if k = 4 then 0x8F else 0xBF) k⟩ := by
  have first : firstByte (0xF0 + k) =
      ([], .char 3 (if k = 0 then 0x90 else 0x80) (if k = 4 then 0x8F else 0xBF) k) := by
    rw [firstByte, if_neg (by omega), if_neg (by omega), if_neg (by omega), if_neg (by omega), if_pos (by omega),
      Nat.add_sub_cancel_left]
    simp [show 0xF0 + k = 0xF4 ↔ k = 4 by omega]
  rw [push_toUInt8 _ (by omega)]
  simp [nextByte, first]

/-- A byte in the middle of a character. -/
theorem push_middle (room : k < 0x40) (inside : low ≤ 0x80 + k ∧ 0x80 + k ≤ high) (more : 1 < left) :
    (Decoder.mk parts (.char left low high value)).push (0x80 + k).toUInt8 =
      ⟨parts, .char (left - 1) 0x80 0xBF (0x40 * value + k)⟩ := by
  rw [push_toUInt8 _ (by omega)]
  simp [nextByte, inside, show ¬ left ≤ 1 by omega]

/-- The last byte of a character. -/
theorem push_last (room : k < 0x40) (inside : low ≤ 0x80 + k ∧ 0x80 + k ≤ high) :
    (Decoder.mk parts (.char 1 low high value)).push (0x80 + k).toUInt8 =
      ⟨some (Char.ofNat (0x40 * value + k)) :: parts, .nothing⟩ := by
  rw [push_toUInt8 _ (by omega)]
  simp [nextByte, inside]

end

/-- The bytes of a character complete that character. -/
theorem foldl_push_encodeChar (c : Char) (parts : List (Option Char)) :
    (encodeChar c).foldl Decoder.push ⟨parts, .nothing⟩ = ⟨some c :: parts, .nothing⟩ := by
  have valid := toNat_valid c
  have back : Char.ofNat c.toNat = c := Char.ofNat_toNat c
  unfold encodeChar
  generalize c.toNat = n at valid back ⊢
  subst back
  simp only
  split
  case isTrue one => rw [List.foldl_cons, push_one parts one, List.foldl_nil]
  case isFalse =>
  split
  case isTrue two =>
    have whole : 0x40 * (n / 0x40) + n % 0x40 = n := by omega
    simp only [List.foldl_cons, List.foldl_nil]
    rw [push_two _ (by omega), push_last _ (by omega) (by omega), whole]
  case isFalse =>
  split
  case isTrue three =>
    have whole : 0x40 * (0x40 * (n / 0x1000) + n / 0x40 % 0x40) + n % 0x40 = n := by omega
    simp only [List.foldl_cons, List.foldl_nil]
    rw [push_three _ (by omega), push_middle _ (by omega) (by split <;> split <;> omega) (by omega),
      push_last _ (by omega) (by omega), whole]
  case isFalse =>
    have whole : 0x40 * (0x40 * (0x40 * (n / 0x40000) + n / 0x1000 % 0x40) + n / 0x40 % 0x40) + n % 0x40 = n := by
      omega
    simp only [List.foldl_cons, List.foldl_nil]
    rw [push_four _ (by omega), push_middle _ (by omega) (by split <;> split <;> omega) (by omega),
      push_middle _ (by omega) (by omega) (by omega), push_last _ (by omega) (by omega), whole]

/-- The bytes of a text complete its characters one after the other. -/
theorem foldl_push_encode (chars : List Char) (parts : List (Option Char)) :
    (chars.flatMap encodeChar).foldl Decoder.push ⟨parts, .nothing⟩ =
      ⟨(chars.map some).reverse ++ parts, .nothing⟩ := by
  induction chars generalizing parts with
  | nil => rfl
  | cons c chars ih =>
    rw [List.flatMap_cons, List.foldl_append, foldl_push_encodeChar, ih]
    simp

theorem decodeParts_encode (text : String) : decodeParts (encode text) = text.toList.map some := by
  rw [decodeParts, encode, foldl_push_encode]
  simp [Begun.finish]

/-- An encoded text is decoded as it was. -/
theorem decode?_encode (text : String) : decode? (encode text) = some text := by
  simp [decode?, decodeParts_encode, List.filterMap_map]

/-- Lossy decoding loses nothing of a text's own encoding. -/
theorem decodeLossy_encode (text : String) : decodeLossy (encode text) = text := by
  simp [decodeLossy, decodeParts_encode, Function.comp_def]

end CompileDb.Text
