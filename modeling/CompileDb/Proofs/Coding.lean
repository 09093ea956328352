import CompileDb.Utility.Digest
import CompileDb.Utility.Dump
import Mathlib.Data.List.Basic

/-!
# Octets as texts

Octets that are written with letters and digits are read back as they were (`SixBits.decode_encode`), also from several
lines (`SixBits.decode_wrapped`). A digest has as many digits as its kind asks for, whatever it is made of
(`Digest.Kind.length_digest`).
-/

namespace CompileDb.Utility

namespace SixBits

/-! ## Letters and digits -/

/-- Every number below 64 has its own letter. -/
theorem idxOf?_letter {n : Nat} (lt : n < 64) : alphabet.idxOf? (letter n) = some n := by
  have all : ∀ n < 64, alphabet.idxOf? (letter n) = some n := by decide +kernel
  exact all n lt

theorem letter_mod (n : Nat) : letter (n % 64) = letter n := by
  simp only [letter, Nat.mod_mod]

/-- Reading a letter back gives the six bits it stands for. -/
theorem idxOf?_letter_mod (n : Nat) : alphabet.idxOf? (letter n) = some (n % 64) :=
  letter_mod n ▸ idxOf?_letter (Nat.mod_lt n (by decide))

/-- No number is written as a newline or with the sign that fills up the last characters. -/
theorem letter_ne (n : Nat) : letter n ≠ '=' ∧ letter n ≠ '\n' := by
  have all : ∀ n < 64, letter n ≠ '=' ∧ letter n ≠ '\n' := by decide +kernel
  exact letter_mod n ▸ all (n % 64) (Nat.mod_lt n (by decide))

section

variable {a b c d : Char} {k l m n : Nat}

/-- Two letters before the filling carry one octet. -/
theorem decode_two (first : alphabet.idxOf? a = some k) (second : alphabet.idxOf? b = some l) :
    decode [a, b, '=', '='] = ([Char.ofNat ((k * 64 + l) / 16)], decide (l % 16 = 0)) := by
  rw [decode, first, second]

/-- Three letters before the filling carry two octets. -/
theorem decode_three (first : alphabet.idxOf? a = some k) (second : alphabet.idxOf? b = some l)
    (third : alphabet.idxOf? c = some m) (filled : c ≠ '=') :
    decode [a, b, c, '='] =
      ([Char.ofNat (((k * 64 + l) * 64 + m) / 1024), Char.ofNat (((k * 64 + l) * 64 + m) / 4 % 256)],
        decide (m % 4 = 0)) := by
  rw [decode, first, second, third]
  exact filled

/-- Four letters carry three octets. -/
theorem decode_four (first : alphabet.idxOf? a = some k) (second : alphabet.idxOf? b = some l)
    (third : alphabet.idxOf? c = some m) (fourth : alphabet.idxOf? d = some n) (filled : d ≠ '=') (rest : List Char) :
    decode (a :: b :: c :: d :: rest) =
      (Char.ofNat ((((k * 64 + l) * 64 + m) * 64 + n) / 65536) ::
          Char.ofNat ((((k * 64 + l) * 64 + m) * 64 + n) / 256 % 256) ::
          Char.ofNat ((((k * 64 + l) * 64 + m) * 64 + n) % 256) :: (decode rest).1,
        (decode rest).2) := by
  rw [decode, first, second, third, fourth]
  · exact fun _ filler => absurd filler filled
  · exact fun filler => absurd filler filled

end

/-- Every character stands for an octet. -/
def Octets (text : List Char) : Prop := ∀ c ∈ text, c.toNat < 256

/-- **What is written with letters and digits is read back as it was.** -/
theorem decode_encode {octets : List Char} (small : Octets octets) : decode (encode octets) = (octets, true) := by
  induction octets using encode.induct with
  | case1 a b c rest ih =>
    obtain ⟨smallA, small⟩ := List.forall_mem_cons.1 small
    obtain ⟨smallB, small⟩ := List.forall_mem_cons.1 small
    obtain ⟨smallC, small⟩ := List.forall_mem_cons.1 small
    rw [encode, decode_four (idxOf?_letter_mod _) (idxOf?_letter_mod _) (idxOf?_letter_mod _) (idxOf?_letter_mod _)
      (letter_ne _).1, ih small]
    generalize sum : (a.toNat * 256 + b.toNat) * 256 + c.toNat = n
    have whole : ((n / 262144 % 64 * 64 + n / 4096 % 64) * 64 + n / 64 % 64) * 64 + n % 64 = n := by omega
    have first : n / 65536 = a.toNat := by omega
    have second : n / 256 % 256 = b.toNat := by omega
    have third : n % 256 = c.toNat := by omega
    simp only [whole, first, second, third, Char.ofNat_toNat]
  | case2 a b =>
    obtain ⟨smallA, small⟩ := List.forall_mem_cons.1 small
    obtain ⟨smallB, -⟩ := List.forall_mem_cons.1 small
    rw [encode, decode_three (idxOf?_letter_mod _) (idxOf?_letter_mod _) (idxOf?_letter_mod _) (letter_ne _).1]
    generalize sum : (a.toNat * 256 + b.toNat) * 256 = n
    have whole : (n / 262144 % 64 * 64 + n / 4096 % 64) * 64 + n / 64 % 64 = n / 64 := by omega
    have first : n / 64 / 1024 = a.toNat := by omega
    have second : n / 64 / 4 % 256 = b.toNat := by omega
    have spare : n / 64 % 64 % 4 = 0 := by omega
    simp only [whole, first, second, spare, Char.ofNat_toNat, decide_true]
  | case3 a =>
    obtain ⟨smallA, -⟩ := List.forall_mem_cons.1 small
    rw [encode, decode_two (idxOf?_letter_mod _) (idxOf?_letter_mod _)]
    generalize sum : a.toNat * 65536 = n
    have first : (n / 262144 % 64 * 64 + n / 4096 % 64) / 16 = a.toNat := by omega
    have spare : n / 4096 % 64 % 16 = 0 := by omega
    simp only [first, spare, Char.ofNat_toNat, decide_true]
  | case4 => rfl

/-- Encoded text is a single line until it is wrapped. -/
theorem newline_not_mem_encode (octets : List Char) : '\n' ∉ encode octets := by
  have letters (n : Nat) : '\n' ≠ letter n := (letter_ne n).2.symm
  induction octets using encode.induct with
  | case1 a b c rest ih => simp [encode, letters, ih]
  | case2 a b => simp [encode, letters]
  | case3 a => simp [encode, letters]
  | case4 => exact List.not_mem_nil

/-- Wrapping only inserts line ends. -/
theorem filter_wrapped (length : Nat) {fuel : Nat} {text : List Char} (enough : text.length < fuel)
    (whole : '\n' ∉ text) : (wrapped length fuel text).filter (· ≠ '\n') = text := by
  have plain {part : List Char} (sublist : part.Sublist text) : part.filter (· ≠ '\n') = part := by
    rw [List.filter_eq_self]
    exact fun c mem => decide_eq_true fun newline => whole (newline ▸ sublist.subset mem)
  induction fuel generalizing text with
  | zero => cases enough
  | succ fuel ih =>
    cases text with
    | nil => rfl
    | cons c rest =>
      rw [wrapped]
      split
      case isTrue => exact plain (List.Sublist.refl _)
      case isFalse long =>
        have shorter : ((c :: rest).drop length).length < fuel := by
          simp only [List.length_drop, List.length_cons] at enough ⊢
          omega
        have sublist := List.drop_sublist length (c :: rest)
        rw [List.filter_append, plain (List.take_sublist length _), List.filter_cons_of_neg (by simp),
          ih shorter (fun mem => whole (sublist.subset mem)) fun below => plain (below.trans sublist),
          List.take_append_drop]
      · exact List.cons_ne_nil c rest

/-- What is written in lines is read back too. -/
theorem decode_wrapped (length : Nat) {octets : List Char} (small : Octets octets) :
    decode ((wrapped length ((encode octets).length + 1) (encode octets)).filter (· ≠ '\n')) = (octets, true) := by
  rw [filter_wrapped length (Nat.lt_succ_self _) (newline_not_mem_encode octets), decode_encode small]

end SixBits

namespace Digest

/-! ## Digests -/

/-- A message is filled up to whole blocks. -/
theorem dvd_length_filled (k : Kind) (octets : List UInt8) : 64 ∣ (filled k octets).length := by
  have bits : (if k = .md5 then octetsOf 8 (8 * octets.length) else (octetsOf 8 (8 * octets.length)).reverse).length = 8 := by
    split <;> simp [octetsOf]
  simp only [filled, List.length_append, List.length_cons, List.length_replicate, bits]
  omega

theorem length_roundMd5 (block : Array Word) (state : List Word) (i : Nat) :
    (roundMd5 block state i).length = state.length := by
  unfold roundMd5
  split <;> rfl

theorem length_roundSha1 (all : Array Word) (state : List Word) (i : Nat) :
    (roundSha1 all state i).length = state.length := by
  unfold roundSha1
  split <;> rfl

theorem length_roundSha256 (all : Array Word) (state : List Word) (i : Nat) :
    (roundSha256 all state i).length = state.length := by
  unfold roundSha256
  split <;> rfl

/-- Rounds that keep the number of words keep it together. -/
theorem length_foldl {α : Type} {round : List Word → α → List Word}
    (keeps : ∀ state a, (round state a).length = state.length) (all : List α) (state : List Word) :
    (all.foldl round state).length = state.length := by
  induction all generalizing state with
  | nil => rfl
  | cons a all ih => exact (ih (round state a)).trans (keeps state a)

theorem Kind.length_step (k : Kind) (state block : List Word) : (k.step state block).length = state.length := by
  unfold Kind.step
  cases k with
  | md5 => simp [length_foldl (length_roundMd5 _)]
  | sha1 => simp [length_foldl (length_roundSha1 _)]
  | sha256 => simp [length_foldl (length_roundSha256 _)]

/-- **A digest has as many digits as its kind asks for.** -/
theorem Kind.length_digest (k : Kind) (octets : List UInt8) : (k.digest octets).length = k.size := by
  have state : ∀ blocks : List (List Word), (blocks.foldl k.step k.start).length = k.start.length :=
    fun blocks => length_foldl k.length_step blocks k.start
  have word : ∀ word : Word, (if k = .md5 then octetsOf 4 word.toNat else (octetsOf 4 word.toNat).reverse).length = 4 := by
    intro word
    split <;> simp [octetsOf]
  simp only [Kind.digest, String.length_ofList, List.length_flatMap, word, hex, List.length_cons, List.length_nil,
    List.map_const', List.sum_replicate_nat, state, Kind.size]
  omega

end Digest

end CompileDb.Utility
