import CompileDb.Proofs.Finding
import CompileDb.Utility.Content
import CompileDb.Utility.Search
import Mathlib.Data.List.Basic

/-!
# What is selected of a text

The beginning of a text and its end meet at one place (`Extent.front_append_back`), and a text that is shown without marks
is the text itself (`markText_plain`), since its lines put together are the text (`Lines.flatten_pieces`). A search for
texts accepts exactly the lines in which one of them occurs (`Wanted.accepts_texts_iff`). The lines keep their order and
get their numbers, and the first of those that are accepted are chosen (`lines_chosen`).
-/

namespace CompileDb.Utility

/-! ## Lines -/

namespace Lines

/-- Taking characters one by one, into whole lines and a rest, loses none of them. -/
theorem flatten_foldl {ending : Char} {take : List (List Char) × List Char → Char → List (List Char) × List Char}
    (takes : ∀ whole line c, take (whole, line) c = if c = ending then (line.reverse :: whole, []) else (whole, c :: line))
    (text : List Char) (state : List (List Char) × List Char) :
    ((text.foldl take state).1.reverse.map (· ++ [ending])).flatten ++ (text.foldl take state).2.reverse =
      (state.1.reverse.map (· ++ [ending])).flatten ++ (state.2.reverse ++ text) := by
  induction text generalizing state with
  | nil => rw [List.append_nil]; rfl
  | cons c text ih =>
    rw [List.foldl_cons, ih, takes state.1 state.2 c]
    split
    case isTrue ends => simp [ends]
    case isFalse => simp

/-- **The lines of a text are all of it.** -/
theorem flatten_pieces (text : List Char) : (ofText text).pieces.flatten = text := by
  have rest (l : List Char) : (if l.isEmpty then [] else [l]).flatten = l := by cases l <;> simp
  have all : ((ofText text).whole.map (· ++ ['\n'])).flatten ++ (ofText text).rest = text := by
    unfold ofText endingIn
    exact flatten_foldl (by intros; rfl) text ([], [])
  rw [pieces, List.flatten_append, rest, all]

end Lines

/-! ## The beginning and the end -/

/-- **What `head` and `tail` give of a text is the text**, if the one counts to where the other begins. -/
theorem Extent.front_append_back (ofLines : Bool) (count : Nat) (text : List Char) :
    Extent.front ⟨ofLines, count, false⟩ text ++ Extent.back ⟨ofLines, count + 1, true⟩ text = text ∧
      Extent.front ⟨ofLines, count, true⟩ text ++ Extent.back ⟨ofLines, count, false⟩ text = text := by
  cases ofLines with
  | false => exact ⟨List.take_append_drop .., List.take_append_drop ..⟩
  | true =>
    have cut (n : Nat) : ((Lines.ofText text).pieces.take n).flatten ++ ((Lines.ofText text).pieces.drop n).flatten = text := by
      rw [← List.flatten_append, List.take_append_drop, Lines.flatten_pieces]
    exact ⟨cut _, cut _⟩

/-! ## Marks -/

/-- Nothing is shown with the lines. -/
def Marks.plain : Marks := ⟨false, false, false, false, false, false⟩

theorem markLine_plain (state : Nat × Bool) (line : List Char) : (markLine .plain state line).2 = line := by
  have shown (c : Char) : (if c = '\n' then [c] else visible .plain c) = [c] := by
    split
    · rfl
    · unfold visible
      split <;> rfl
  have body : (line.flatMap fun c => if c = '\n' then [c] else visible .plain c) = line := by simp [shown]
  simp only [markLine, Marks.plain, Bool.and_false, Bool.false_eq_true, if_false, List.nil_append]
  exact body

/-- Showing lines one by one keeps all of them, if each of them is shown as it is. -/
theorem reverse_foldl {σ : Type} {mark : σ × List (List Char) → List Char → σ × List (List Char)}
    (marks : ∀ state line, (mark state line).2 = line :: state.2) (lines : List (List Char))
    (state : σ × List (List Char)) : (lines.foldl mark state).2.reverse = state.2.reverse ++ lines := by
  induction lines generalizing state with
  | nil => rw [List.append_nil]; rfl
  | cons line lines ih => rw [List.foldl_cons, ih, marks, List.reverse_cons, List.append_assoc]; rfl

/-- **Without marks a text is shown as it is.** -/
theorem markText_plain (text : List Char) : markText .plain text = text := by
  unfold markText
  refine (congrArg List.flatten (reverse_foldl ?_ (Lines.ofText text).pieces ((0, false), []))).trans
    (Lines.flatten_pieces text)
  exact fun state line => congrArg (· :: state.2) (markLine_plain state.1 line)

/-! ## Searching for texts -/

namespace Regex

variable {text rest : List Char} {p : Place}

/-- The search goes through a text that stands at a place. -/
theorem run_ofText {fuel : Nat} (enough : text.length < fuel) (after : p.after = text ++ rest)
    (next : Place → Option Place) : run false fuel (ofText text) p next = next (p.beyond text rest) := by
  induction text generalizing p fuel with
  | nil =>
    obtain ⟨fuel, rfl⟩ := Nat.exists_eq_succ_of_ne_zero (Nat.ne_of_gt enough)
    obtain rfl : p.after = rest := after
    rfl
  | cons c text ih =>
    obtain ⟨fuel, rfl⟩ := Nat.exists_eq_succ_of_ne_zero (Nat.ne_of_gt (Nat.zero_lt_of_lt enough))
    have enough : text.length < fuel := Nat.lt_of_succ_lt_succ enough
    have first (next : Place → Option Place) : run false fuel (.char c) p next = next (p.past c (text ++ rest)) := by
      obtain ⟨fuel, rfl⟩ := Nat.exists_eq_succ_of_ne_zero (Nat.ne_of_gt (Nat.zero_lt_of_lt enough))
      change step p (same false c) next = _
      rw [step, after]
      exact if_pos (by simp [same])
    change run false fuel (.char c) p (fun q => run false fuel (ofText text) q next) = _
    rw [first, ih enough rfl]
    simp [Place.beyond, Place.past]

/-- **A text is found in a line iff it occurs there.** -/
theorem find_ofText_isSome_iff {line : List Char} :
    ((ofText text).find false (line.length + 1) ⟨[], line, []⟩ []).isSome = true ↔ text <:+: line := by
  constructor
  · intro found
    obtain ⟨result, found⟩ := Option.isSome_iff_exists.1 found
    obtain ⟨passed, -, whole, matched, -⟩ := find_eq_some (q := result.2.2) found
    have taken := (matches_ofText_iff.1 matched).1
    exact ⟨passed, result.2.2.after, by rw [List.append_assoc, ← taken]; exact whole.symm⟩
  · rintro ⟨front, back, rfl⟩
    by_contra lost
    have nowhere := find_eq_none (Nat.lt_succ_self _) (Option.not_isSome_iff_eq_none.1 lost)
      (List.append_assoc front text back)
    have enough : text.length < searchDepth (text ++ back) := by
      simp only [searchDepth, List.length_append]
      omega
    let here : Place := ⟨front.reverse ++ [], text ++ back, []⟩
    have found := @run_ofText text back here _ enough rfl some
    cases nowhere.symm.trans found

end Regex

namespace Wanted

/-- A match is picked iff there is one to pick. -/
theorem isSome_foldl {α : Type} {pick : Option α → α → Option α} (picks : ∀ best a, (pick best a).isSome = true)
    (all : List α) : (all.foldl pick none).isSome = true ↔ all ≠ [] := by
  rcases List.eq_nil_or_concat all with rfl | ⟨front, last, rfl⟩
  · simp
  · rw [List.concat_eq_append, List.foldl_append, List.foldl_cons, List.foldl_nil]
    exact iff_of_true (picks ..) (by simp)

/-- Something is found iff one of the patterns is. -/
theorem find?_isSome_iff (w : Wanted) (p : Place) :
    (w.find? p).isSome = true ↔
      ∃ r ∈ w.patterns, ((w.framed r).find w.ignoresCase (p.after.length + 1) p []).isSome = true := by
  unfold find?
  rw [isSome_foldl]
  · simp [List.filterMap_eq_nil_iff, Option.isSome_iff_ne_none]
  · intro best m
    split
    · rfl
    · split <;> rfl

/-- **A search for texts accepts the lines in which one of them occurs**, or all others. -/
theorem accepts_texts_iff (texts : List (List Char)) (inverted : Bool) (line : List Char) :
    accepts ⟨texts.map Regex.ofText, false, inverted, false, false⟩ line = true ↔
      ((∃ text ∈ texts, text <:+: line) ↔ inverted = false) := by
  have found : (find? ⟨texts.map Regex.ofText, false, inverted, false, false⟩ ⟨[], line, []⟩).isSome = true ↔
      ∃ text ∈ texts, text <:+: line := by
    rw [find?_isSome_iff]
    simp only [List.mem_map, exists_exists_and_eq_and, framed, Bool.false_eq_true, if_false, Regex.find_ofText_isSome_iff]
  rw [← found, accepts]
  cases inverted <;> simp

end Wanted

/-! ## Lines with their numbers -/

/-- Each line with its number, and whether it is one of so many that are accepted. -/
def numberedFrom (w : Wanted) : Option Nat → Nat → List (List Char) → List Numbered
  | _, _, [] => []
  | left, n, line :: rest =>
    let isChosen := left ≠ some 0 && w.accepts line
    ⟨line, n + 1, isChosen⟩ :: numberedFrom w (if isChosen then left.map (· - 1) else left) (n + 1) rest

/-- The lines are numbered from the front, each after those before it. -/
theorem reverse_foldl_numberedFrom {w : Wanted}
    {step : Option Nat × List Numbered → List Char × Nat → Option Nat × List Numbered}
    (steps : ∀ left seen line n, step (left, seen) (line, n) =
      (if left ≠ some 0 && w.accepts line then left.map (· - 1) else left,
        ⟨line, n + 1, left ≠ some 0 && w.accepts line⟩ :: seen))
    (lines : List (List Char)) (n : Nat) (state : Option Nat × List Numbered) :
    ((lines.zipIdx n).foldl step state).2.reverse = state.2.reverse ++ numberedFrom w state.1 n lines := by
  induction lines generalizing n state with
  | nil => exact (List.append_nil _).symm
  | cons line rest ih =>
    rw [List.zipIdx_cons, List.foldl_cons, ih, steps state.1 state.2, List.reverse_cons, List.append_assoc]
    rfl

theorem numbered_eq (w : Wanted) (most : Option Nat) (lines : List (List Char)) :
    numbered w most lines = numberedFrom w most 0 lines :=
  reverse_foldl_numberedFrom (fun _ _ _ _ => rfl) lines 0 (most, [])

/-- Every line is there, with the number of its place. -/
theorem lines_numbered (w : Wanted) (most : Option Nat) (lines : List (List Char)) :
    (numbered w most lines).map (fun l => (l.line, l.number)) = lines.zipIdx 1 := by
  have all (lines : List (List Char)) : ∀ left n,
      (numberedFrom w left n lines).map (fun l => (l.line, l.number)) = lines.zipIdx (n + 1) := by
    induction lines with
    | nil => exact fun _ _ => rfl
    | cons line rest ih => exact fun left n => congrArg _ (ih _ (n + 1))
  rw [numbered_eq, all]

/-- **The first of the accepted lines are chosen**, as many as are asked for. -/
theorem lines_chosen (w : Wanted) (most : Option Nat) (lines : List (List Char)) :
    ((numbered w most lines).filter Numbered.isChosen).map Numbered.line =
      most.elim (lines.filter w.accepts) fun count => (lines.filter w.accepts).take count := by
  rw [numbered_eq]
  generalize 0 = n
  induction lines generalizing most n with
  | nil => cases most <;> simp [numberedFrom]
  | cons line rest ih =>
    rw [numberedFrom, List.filter_cons, List.filter_cons]
    cases accepted : w.accepts line with
    | false => simp [ih]
    | true =>
      cases most with
      | none => simp [ih]
      | some count =>
        cases count with
        | zero => simp [ih]
        | succ count => simp [ih]

end CompileDb.Utility
