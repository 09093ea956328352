import CompileDb.Proofs.Cutting
import CompileDb.Shell.Evaluate

/-!
# What stands between apostrophes is one argument

A text between apostrophes is read as one word (`run_parts_apostrophes`), and the word is worked out to one argument,
which is the text as it stands, whatever characters it has and whatever files there are (`wordFields_apostrophes`).
-/

namespace CompileDb

instance : LawfulMonad Host.Action := .mk' _ (fun _ => rfl) (fun _ _ => rfl) fun _ _ _ => rfl

namespace Shell

namespace Reading

variable {s : Source} {text after : List Char} {c : Char}

/-! ## Characters -/

theorem run_take (joins : Bool) (s : Source) : (take joins).run s = .ok (next joins { s with ended := [] } s.rest) := rfl

/-- A character that is no backslash is taken as it stands. -/
theorem take_cons (joins : Bool) (rest : s.rest = c :: after) (plain : c ≠ aliasEnd) (whole : joins = false ∨ c ≠ '\\') :
    (take joins).run s = .ok (some c, { s with rest := after, ended := [] }) := by
  have joint : (joins && decide (c = '\\')) = false := by
    rcases whole with rfl | whole
    · rfl
    · simp [whole]
  rw [run_take, rest]
  unfold next
  rw [if_neg plain, joint]
  rfl

end Reading

/-- The source behind a text that was read. -/
def Source.behind (s : Source) (text after : List Char) : Source :=
  { s with rest := after, line := s.line + text.count '\n', ended := [] }

namespace Reading

variable {s : Source} {text after : List Char} {c : Char}

/-- Between apostrophes every character stands for itself. -/
theorem run_apostrophes_succ (fuel : Nat) (seen : List Char) {s after : Source} {c : Char}
    (taken : (take false).run s = .ok (some c, after)) (other : c ≠ '\x27') :
    (apostrophes (fuel + 1) seen).run s =
      (apostrophes fuel (c :: seen)).run { after with line := after.line + [c].count '\n' } := by
  rw [apostrophes, StateT.run_bind, taken]
  by_cases newline : c = '\n'
  · subst newline
    rfl
  · have count : [c].count '\n' = 0 := by simp [newline]
    rw [count]
    dsimp only [bind, Except.bind]
    split
    case h_1 nothing => cases nothing
    case h_2 apostrophe => exact absurd (Option.some.inj apostrophe) other
    case h_3 same =>
      cases same
      rw [if_neg newline]
      rfl

/-- The text up to an apostrophe is taken as it stands. -/
theorem run_apostrophes {fuel : Nat} (enough : text.length < fuel) (seen : List Char)
    (literal : ∀ c ∈ text, c ≠ '\x27' ∧ c ≠ aliasEnd) (rest : s.rest = text ++ '\x27' :: after) :
    (apostrophes fuel seen).run s = .ok (.ofList (seen.reverse ++ text), s.behind text after) := by
  induction fuel generalizing text seen s with
  | zero => cases enough
  | succ fuel ih =>
    cases text with
    | nil =>
      have taken := take_cons false rest (by decide) (.inl rfl)
      rw [apostrophes, StateT.run_bind, taken, List.append_nil]
      rfl
    | cons c text =>
      obtain ⟨⟨other, plain⟩, literal⟩ := List.forall_mem_cons.1 literal
      rw [run_apostrophes_succ fuel seen (take_cons false rest plain (.inl rfl)) other,
        ih (Nat.lt_of_succ_lt_succ enough) (c :: seen) literal rfl]
      simp [Source.behind, List.count_cons]
      omega

/-! ## Words -/

/-- A character that begins no value goes on with the word. -/
theorem run_parts_word (fuel : Nat) (seen : List Part) (chars : List Char) {s after : Source}
    (taken : (take true).run s = .ok (some c, after)) (plain : c ≠ '\\' ∧ c ≠ '$' ∧ c ≠ '\x60') :
    (parts (fuel + 1) .word seen chars).run s = (outside fuel .word c seen chars).run after := by
  obtain ⟨escape, value, output⟩ := plain
  unfold parts
  rw [StateT.run_bind, taken]
  dsimp only [bind, Except.bind]
  rw [if_neg escape, if_neg value, if_neg output]

/-- What ends a word begins no value. -/
theorem ordinary_of_endsWord (ends : endsWord c = true) : c ≠ aliasEnd ∧ c ≠ '\\' ∧ c ≠ '$' ∧ c ≠ '\x60' := by
  have all : [' ', '\t', '\n', ';', '&', '|', '(', ')', '<', '>'].all
      (fun c => c != aliasEnd && c != '\\' && c != '$' && c != '\x60') = true := by decide
  simpa [and_assoc] using List.all_eq_true.1 all c (of_decide_eq_true ends)

/-- A word ends before what ends words. -/
theorem run_parts_end (fuel : Nat) (seen : List Part) (ends : ∀ c ∈ s.rest.head?, endsWord c = true) :
    (parts (fuel + 2) .word seen []).run s = .ok (seen.reverse, { s with ended := [] }) := by
  obtain ⟨rest, line, aliases, inUse, ended, asksAlias, pushedBack, awaiting, documents, nextDocument⟩ := s
  cases rest with
  | nil =>
    unfold parts
    rw [StateT.run_bind, run_take]
    rfl
  | cons c after =>
    have ends : endsWord c = true := ends c rfl
    obtain ⟨plain, escape, others⟩ := ordinary_of_endsWord ends
    rw [run_parts_word _ _ _ (take_cons true rfl plain (.inr escape)) ⟨escape, others⟩]
    unfold outside
    rw [if_pos ends]
    rfl

/-- **A text between apostrophes is read as one word**, if what ends words comes after it. -/
theorem run_parts_apostrophes {fuel : Nat} (enough : text.length + 1 < fuel)
    (literal : ∀ c ∈ text, c ≠ '\x27' ∧ c ≠ aliasEnd) (rest : s.rest = '\x27' :: (text ++ '\x27' :: after))
    (ends : ∀ c ∈ after.head?, endsWord c = true) :
    (parts (fuel + 2) .word [] []).run s = .ok ([.quoted [.literal (.ofList text)]], s.behind text after) := by
  obtain ⟨fuel, rfl⟩ := Nat.exists_eq_add_of_le' (show 2 ≤ fuel by omega)
  rw [run_parts_word _ _ _ (take_cons true rest (by decide) (.inr (by decide))) (by decide)]
  unfold outside
  rw [if_neg (by decide), if_neg (by decide), if_pos rfl, StateT.run_bind,
    run_apostrophes (Nat.lt_of_succ_lt enough) [] literal rfl]
  exact run_parts_end fuel _ ends

end Reading

/-! ## Arguments -/

/-- A text between apostrophes is worked out to itself. -/
theorem items_apostrophes (fuel : Nat) (e : Expansion) (isStart : Bool) (text : String) :
    items (fuel + 5) e isStart [.quoted [.literal text]] = pure (.mark :: Item.ofQuoted text.toList ++ [.mark]) := by
  simp [items, partItems]

/-- Quoted characters are added to a field that has begun. -/
theorem foldl_ofQuoted (separators text : List Char) {s : Cutting} (begun : s.begun = true) :
    (Item.ofQuoted text).foldl (Cutting.take separators) s =
      { s with field := (text.map (·, true)).reverse ++ s.field } := by
  induction text generalizing s with
  | nil => rfl
  | cons c text ih =>
    refine (ih (s := s.add (c, true)) rfl).trans ?_
    simp [Cutting.add, begun]

theorem fields_apostrophes (separators text : List Char) :
    fields separators none (.mark :: Item.ofQuoted text ++ [.mark]) = [text.map (·, true)] := by
  rw [fields_eq_finish, List.cons_append, List.foldl_cons, List.foldl_append, foldl_ofQuoted separators text rfl]
  simp [Cutting.take, Cutting.start, Cutting.finish, Cutting.cut]

/-- **It is one argument, which is the text as it stands**, whatever the state of the shell is and whatever files there are. -/
theorem wordFields_apostrophes (fuel : Nat) (text : String) :
    wordFields (fuel + 6) [.quoted [.literal text]] = pure [text] := by
  have closed : (text.toList.map Sign.char).any Sign.isOpen = false := by simp [Sign.isOpen]
  have glyphs : (text.toList.map (·, true)).map Prod.fst = text.toList := by simp [Function.comp_def]
  rw [wordFields, items_apostrophes, pure_bind]
  simp only [fields_apostrophes, List.any_cons, List.any_nil, Sign.ofText_quoted, closed, Bool.or_false, Bool.not_false,
    Bool.or_true, if_true, List.map_cons, List.map_nil, glyphs, String.ofList_toList]
  rfl

end Shell

end CompileDb
