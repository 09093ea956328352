import CompileDb.Shell.Field
import Mathlib.Data.List.Basic

/-!
# What patterns match

A pattern matches a text that can be cut into one part for each of its signs (`Sign.Matches`). The search for such a cut
decides that. What is taken off the front or the back of a text is the shortest or the longest part that matches, and
nothing is taken off if none does. Quoted characters match themselves only, so a quoted word is never a pattern.
-/

namespace CompileDb.Shell

/-- Each sign has its part of the text: `*` any part, another sign one character that it accepts. -/
inductive Sign.Matches : List Sign → List Char → Prop
  | nil : Matches [] []
  | any {signs : List Sign} {part rest : List Char} : Matches signs rest → Matches (.any :: signs) (part ++ rest)
  | one {sign : Sign} {signs : List Sign} {c : Char} {rest : List Char} : sign ≠ .any → sign.accepts c = true →
      Matches signs rest → Matches (sign :: signs) (c :: rest)

namespace Sign

variable {sign : Sign} {signs : List Sign} {c : Char} {text rest : List Char}

theorem matches_nil_iff : Matches [] text ↔ text = [] := by
  constructor
  · rintro ⟨⟩
    rfl
  · rintro rfl
    exact .nil

/-- A star takes any number of characters. -/
theorem matches_any_iff : Matches (.any :: signs) text ↔ ∃ n, n ≤ text.length ∧ Matches signs (text.drop n) := by
  constructor
  · intro found
    cases found with
    | @any _ part rest behind =>
      exact ⟨part.length, by simp, by rwa [List.drop_left]⟩
    | one other => exact absurd rfl other
  · rintro ⟨n, -, behind⟩
    rw [← List.take_append_drop n text]
    exact .any behind

/-- Every other sign takes one character it accepts. -/
theorem matches_one_iff (other : sign ≠ .any) :
    Matches (sign :: signs) text ↔ ∃ c rest, text = c :: rest ∧ sign.accepts c = true ∧ Matches signs rest := by
  constructor
  · intro found
    cases found with
    | any => exact absurd rfl other
    | one _ accepts behind => exact ⟨_, _, rfl, accepts, behind⟩
  · rintro ⟨c, rest, rfl, accepts, behind⟩
    exact .one other accepts behind

theorem matchAll_of_ne_any (other : sign ≠ .any) :
    matchAll (sign :: signs) text = true ↔
      ∃ c rest, text = c :: rest ∧ sign.accepts c = true ∧ matchAll signs rest = true := by
  cases text with
  | nil => cases sign <;> simp [matchAll] at other ⊢
  | cons c rest => cases sign <;> simp [matchAll] at other ⊢

/-- **The search finds a match exactly if there is one.** -/
theorem matchAll_iff : matchAll signs text = true ↔ Matches signs text := by
  induction signs generalizing text with
  | nil => rw [matches_nil_iff, matchAll, List.isEmpty_iff]
  | cons sign signs ih =>
    by_cases other : sign = .any
    · subst other
      simp [matchAll, matches_any_iff, ih, Nat.lt_succ_iff]
    · rw [matches_one_iff other, matchAll_of_ne_any other]
      simp [ih]

/-- Signs for characters match just these characters. -/
theorem matches_char_iff : Matches (text.map char) rest ↔ rest = text := by
  induction text generalizing rest with
  | nil => exact matches_nil_iff
  | cons c text ih =>
    rw [List.map_cons, matches_one_iff (by simp)]
    simp only [ih, accepts, beq_iff_eq]
    constructor
    · rintro ⟨d, _, rfl, rfl, rfl⟩
      rfl
    · rintro rfl
      exact ⟨c, text, rfl, rfl, rfl⟩

/-! ## Quoted characters -/

theorem ofGlyphs_quoted {fuel : Nat} (enough : text.length < fuel) :
    ofGlyphs fuel (text.map (·, true)) = text.map char := by
  induction text generalizing fuel with
  | nil =>
    obtain ⟨fuel, rfl⟩ := Nat.exists_eq_add_one_of_ne_zero (Nat.ne_zero_of_lt enough)
    rfl
  | cons c text ih =>
    obtain ⟨fuel, rfl⟩ := Nat.exists_eq_add_one_of_ne_zero (Nat.ne_zero_of_lt enough)
    have behind := @ih fuel (by simpa using enough)
    simp [ofGlyphs, behind]

/-- Quoted text is taken letter by letter, its stars included. -/
theorem ofText_quoted (text : List Char) : ofText (text.map (·, true)) = text.map char := by
  rw [ofText, ofGlyphs_quoted (by simp)]

/-- **A quoted text matches itself only**, whatever characters it has. -/
theorem matchAll_ofText_quoted : matchAll (ofText (text.map (·, true))) rest = true ↔ rest = text := by
  rw [ofText_quoted, matchAll_iff, matches_char_iff]

end Sign

/-- A quoted word stands for itself, whatever files there are. -/
theorem fileNames_quoted (files : FileTree) (text : List Char) :
    fileNames files (text.map (·, true)) = [String.ofList text] := by
  have closed : (text.map Sign.char).any Sign.isOpen = false := by simp [Sign.isOpen]
  simp [fileNames, Sign.ofText_quoted, closed, Function.comp_def]

/-! ## Taking off what matches -/

section

variable {cuts : List Nat} {n : Nat}

theorem le_of_head? (ascending : cuts.Pairwise (· < ·)) (first : cuts.head? = some n) : ∀ m ∈ cuts, n ≤ m := by
  obtain ⟨rest, rfl⟩ := List.head?_eq_some_iff.1 first
  intro m mem
  rcases List.mem_cons.1 mem with rfl | mem
  · exact Nat.le_refl m
  · exact Nat.le_of_lt (List.rel_of_pairwise_cons ascending mem)

theorem le_of_getLast? (ascending : cuts.Pairwise (· < ·)) (last : cuts.getLast? = some n) : ∀ m ∈ cuts, m ≤ n := by
  obtain ⟨front, rfl⟩ := List.getLast?_eq_some_iff.1 last
  intro m mem
  rcases List.mem_append.1 mem with mem | mem
  · exact Nat.le_of_lt ((List.pairwise_append.1 ascending).2.2 m mem n (List.mem_singleton.2 rfl))
  · exact Nat.le_of_eq (List.mem_singleton.1 mem)

/-- The first or the last place at which a text may be cut, if there is one. -/
theorem cut_cases (accepts : Nat → Bool) (length : Nat) (last : Bool) :
    let cuts := (List.range (length + 1)).filter accepts
    (∃ n, (if last then cuts.getLast? else cuts.head?) = some n ∧ n ≤ length ∧ accepts n = true ∧
        ∀ m, m ≤ length → accepts m = true → if last then m ≤ n else n ≤ m) ∨
      (if last then cuts.getLast? else cuts.head?) = none ∧ ∀ m, m ≤ length → accepts m = false := by
  intro cuts
  have ascending : cuts.Pairwise (· < ·) := List.pairwise_lt_range.filter _
  have mem_cuts : ∀ m, m ∈ cuts ↔ m ≤ length ∧ accepts m = true := fun m => by simp [cuts, Nat.lt_succ_iff]
  cases chosen : (if last then cuts.getLast? else cuts.head?) with
  | none =>
    right
    have nothing : cuts = [] := by
      cases last
      · exact List.head?_eq_none_iff.1 chosen
      · exact List.getLast?_eq_none_iff.1 chosen
    refine ⟨rfl, fun m le => ?_⟩
    rw [← Bool.not_eq_true]
    intro accepted
    have mem := (mem_cuts m).2 ⟨le, accepted⟩
    rw [nothing] at mem
    cases mem
  | some n =>
    left
    have mem : n ∈ cuts := by
      cases last
      · exact List.mem_of_head? chosen
      · exact List.mem_of_getLast? chosen
    obtain ⟨le, accepted⟩ := (mem_cuts n).1 mem
    refine ⟨n, rfl, le, accepted, fun m le' accepted' => ?_⟩
    cases last
    · exact le_of_head? ascending chosen m ((mem_cuts m).2 ⟨le', accepted'⟩)
    · exact le_of_getLast? ascending chosen m ((mem_cuts m).2 ⟨le', accepted'⟩)

end

/-- **What is taken off the front** of a text is the longest or the shortest part that matches, if any part does. -/
theorem withoutFront_cases (longest : Bool) (signs : List Sign) (text : List Char) :
    (∃ part, text = part ++ withoutFront longest signs text ∧ Sign.Matches signs part ∧
        ∀ other rest, text = other ++ rest → Sign.Matches signs other →
          if longest then other.length ≤ part.length else part.length ≤ other.length) ∨
      (∀ other rest, text = other ++ rest → ¬ Sign.Matches signs other) ∧ withoutFront longest signs text = text := by
  have accepts : ∀ n, Sign.matchAll signs (text.take n) = true ↔ Sign.Matches signs (text.take n) :=
    fun _ => Sign.matchAll_iff
  rcases cut_cases (fun n => Sign.matchAll signs (text.take n)) text.length longest with
    ⟨n, chosen, le, accepted, extreme⟩ | ⟨chosen, refused⟩
  · left
    have rest : withoutFront longest signs text = text.drop n := by rw [withoutFront, chosen, Option.getD_some]
    refine ⟨text.take n, by rw [rest, List.take_append_drop], (accepts n).1 accepted, ?_⟩
    rintro other rest rfl matched
    have cut := extreme other.length (by simp) (by rw [accepts, List.take_left]; exact matched)
    rwa [List.length_take_of_le le]
  · right
    refine ⟨?_, by rw [withoutFront, chosen, Option.getD_none, List.drop_zero]⟩
    rintro other rest rfl matched
    have cut := refused other.length (by simp)
    rw [← Bool.not_eq_true, accepts, List.take_left] at cut
    exact cut matched

/-- **What is taken off the back** of a text is the longest or the shortest part that matches, if any part does. -/
theorem withoutBack_cases (longest : Bool) (signs : List Sign) (text : List Char) :
    (∃ part, text = withoutBack longest signs text ++ part ∧ Sign.Matches signs part ∧
        ∀ front other, text = front ++ other → Sign.Matches signs other →
          if longest then other.length ≤ part.length else part.length ≤ other.length) ∨
      (∀ front other, text = front ++ other → ¬ Sign.Matches signs other) ∧ withoutBack longest signs text = text := by
  have accepts : ∀ n, Sign.matchAll signs (text.drop n) = true ↔ Sign.Matches signs (text.drop n) :=
    fun _ => Sign.matchAll_iff
  -- The longest part at the back begins at the first place.
  have turned : ∀ cuts : List Nat, (if longest then cuts.head? else cuts.getLast?) =
      if !longest then cuts.getLast? else cuts.head? := by cases longest <;> simp
  rcases cut_cases (fun n => Sign.matchAll signs (text.drop n)) text.length (!longest) with
    ⟨n, chosen, le, accepted, extreme⟩ | ⟨chosen, refused⟩
  · left
    have rest : withoutBack longest signs text = text.take n := by
      rw [withoutBack, turned, chosen, Option.getD_some]
    refine ⟨text.drop n, by rw [rest, List.take_append_drop], (accepts n).1 accepted, ?_⟩
    rintro front other rfl matched
    have cut := extreme front.length (by simp) (by rw [accepts, List.drop_left]; exact matched)
    simp only [List.length_append, List.length_drop] at le ⊢
    cases longest <;> simp at cut ⊢ <;> omega
  · right
    refine ⟨?_, by rw [withoutBack, turned, chosen, Option.getD_none, List.take_length]⟩
    rintro front other rfl matched
    have cut := refused front.length (by simp)
    rw [← Bool.not_eq_true, accepts, List.drop_left] at cut
    exact cut matched

/-- The extension of a file name is taken off, and the directories in front of it. -/
example :
    withoutBack false [.char '.', .any] "src/a.b.c".toList = "src/a.b".toList ∧
      withoutFront true [.any, .char '/'] "src/a.b.c".toList = "a.b.c".toList := by decide

end CompileDb.Shell
