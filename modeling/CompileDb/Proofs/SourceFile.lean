import CompileDb.Make.Invocation
import Mathlib.Data.List.Basic

/-!
# Which word is the source file

A call is read word by word, with a mark that the word just read takes the next one as its value. What it reads can
be said of each word by itself and the one before it (`SourceAt`): the source file is the last word that stands for one
in this sense (`sourceFile?_eq_some_iff`). `ofLine?_eq_some_iff_sourceAt` says so of whole lines.
-/

namespace CompileDb.Make.Invocation

/-! ## Words that stand for a source file -/

/-- The word at this position ends as a source file does, and it is not the value of the word before it. -/
def SourceAt (words : List String) (i : Nat) : Prop :=
  (∃ word ∈ words[i]?, ∃ suffix ∈ sourceSuffixes, suffix.toList <:+ word.toList) ∧
    ∀ j, i = j + 1 → ∀ flag ∈ words[j]?, flag ∉ valueFlags

/-- A source is known by its suffix. -/
theorem isSource_iff {word : String} :
    isSource word = true ↔ ∃ suffix ∈ sourceSuffixes, suffix.toList <:+ word.toList := by
  simp [isSource, List.isSuffixOf_iff_suffix]

/-- An option that takes a value is no source file. -/
theorem isSource_of_mem_valueFlags {word : String} (flag : word ∈ valueFlags) : isSource word = false := by
  have flags : valueFlags.all (!isSource ·) = true := by decide +kernel
  simpa using List.all_eq_true.1 flags word flag

theorem not_sourceAt_nil (i : Nat) : ¬ SourceAt [] i := by
  simp [SourceAt]

theorem sourceAt_cons_zero {word : String} {rest : List String} :
    SourceAt (word :: rest) 0 ↔ isSource word = true := by
  simp [SourceAt, isSource_iff]

/-- A word counts as a source unless a flag that takes a value stands before it. -/
theorem sourceAt_cons_succ {word : String} {rest : List String} {i : Nat} :
    SourceAt (word :: rest) (i + 1) ↔ SourceAt rest i ∧ (i = 0 → word ∉ valueFlags) := by
  cases i with
  | zero => simp [SourceAt]
  | succ i => simp [SourceAt]

theorem SourceAt.lt_length {words : List String} {i : Nat} (source : SourceAt words i) : i < words.length := by
  obtain ⟨⟨word, there, -⟩, -⟩ := source
  exact (List.getElem?_eq_some_iff.1 there).1

/-- What words stand for does not depend on those behind them. -/
theorem sourceAt_append_left {front : List String} {i : Nat} (inside : i < front.length) (back : List String) :
    SourceAt (front ++ back) i ↔ SourceAt front i := by
  have same : ∀ j, i = j + 1 → (front ++ back)[j]? = front[j]? := by
    intro j next
    exact List.getElem?_append_left (by omega)
  unfold SourceAt
  rw [List.getElem?_append_left inside]
  refine and_congr_right fun _ => forall_congr' fun j => forall_congr' fun next => ?_
  rw [same j next]

/-- Behind others, words stand for what they stand for by themselves, except that the first of them may be the value of
the last of those. -/
theorem sourceAt_append_right (front back : List String) (j : Nat) :
    SourceAt (front ++ back) (front.length + j) ↔
      SourceAt back j ∧ (j = 0 → ∀ flag ∈ front.getLast?, flag ∉ valueFlags) := by
  induction front generalizing j with
  | nil => simp
  | cons word front ih =>
    rw [List.cons_append, List.length_cons, Nat.add_right_comm, sourceAt_cons_succ, ih]
    cases front with
    | nil => simp
    | cons next front => simp [List.getLast?_cons_cons]

/-- Neither the options of a run nor the word behind them stand for a source file. -/
theorem not_sourceAt_run {flags : List String} (run : flags ≠ []) (all : ∀ flag ∈ flags, flag ∈ valueFlags)
    (value : String) (i : Nat) : ¬ SourceAt (flags ++ [value]) i := by
  intro source
  by_cases inside : i < flags.length
  · obtain ⟨⟨word, there, ending⟩, -⟩ := (sourceAt_append_left inside [value]).1 source
    have flag := isSource_of_mem_valueFlags (all word (List.mem_of_getElem? there))
    exact Bool.false_ne_true (flag.symm.trans (isSource_iff.2 ending))
  · obtain ⟨j, rfl⟩ := Nat.exists_eq_add_of_le (Nat.le_of_not_lt inside)
    obtain ⟨source, unshielded⟩ := (sourceAt_append_right flags [value] j).1 source
    have zero : j = 0 := Nat.lt_one_iff.1 source.lt_length
    exact unshielded zero _ (List.getLast?_eq_some_getLast run) (all _ (List.getLast_mem run))

/-- A run of options that take values shields only the word behind its last one. -/
theorem sourceAt_run {flags : List String} {value : String} (run : flags ≠ [])
    (all : ∀ flag ∈ flags, flag ∈ valueFlags) (other : value ∉ valueFlags) (back : List String) (i : Nat) :
    SourceAt (flags ++ value :: back) i ↔ ∃ j, i = flags.length + 1 + j ∧ SourceAt back j := by
  have length : (flags ++ [value]).length = flags.length + 1 := by simp
  rw [List.append_cons]
  by_cases inside : i < (flags ++ [value]).length
  · rw [sourceAt_append_left inside]
    refine iff_of_false (not_sourceAt_run run all value i) ?_
    rintro ⟨j, rfl, -⟩
    omega
  · obtain ⟨j, rfl⟩ := Nat.exists_eq_add_of_le (Nat.le_of_not_lt inside)
    have unshielded : ∀ flag ∈ (flags ++ [value]).getLast?, flag ∉ valueFlags := by simpa using other
    rw [sourceAt_append_right, length]
    constructor
    · rintro ⟨source, -⟩
      exact ⟨j, rfl, source⟩
    · rintro ⟨j', same, source⟩
      obtain rfl : j = j' := Nat.add_left_cancel same
      exact ⟨source, fun _ => unshielded⟩

/-- The same within other words, which the run separates from each other. -/
theorem sourceAt_append_run (front : List String) {flags : List String} {value : String} (run : flags ≠ [])
    (all : ∀ flag ∈ flags, flag ∈ valueFlags) (other : value ∉ valueFlags) (back : List String) (i : Nat) :
    SourceAt (front ++ flags ++ value :: back) i ↔
      SourceAt front i ∨ ∃ j, i = front.length + flags.length + 1 + j ∧ SourceAt back j := by
  rw [List.append_assoc]
  by_cases inside : i < front.length
  · have outside : ¬ ∃ j, i = front.length + flags.length + 1 + j ∧ SourceAt back j := by
      rintro ⟨j, rfl, -⟩
      omega
    rw [sourceAt_append_left inside, or_iff_left outside]
  · obtain ⟨k, rfl⟩ := Nat.exists_eq_add_of_le (Nat.le_of_not_lt inside)
    have outside : ¬ SourceAt front (front.length + k) := fun source => inside source.lt_length
    rw [sourceAt_append_right, sourceAt_run run all other, or_iff_right outside]
    constructor
    · rintro ⟨⟨j, rfl, source⟩, -⟩
      exact ⟨j, by omega, source⟩
    · rintro ⟨j, same, source⟩
      exact ⟨⟨j, by omega, source⟩, fun zero => by omega⟩

/-! ## Reading a call -/

/-- One more word in front: it is the source file if no later word is. -/
theorem sourceFile?_cons (shielded : Bool) (word : String) (rest : List String) :
    sourceFile? shielded (word :: rest) =
      (sourceFile? (valueFlags.contains word) rest).or (if isSource word && !shielded then some word else none) := by
  rw [sourceFile?]
  by_cases flag : word ∈ valueFlags
  · simp [flag, isSource_of_mem_valueFlags flag]
  · cases shielded <;> cases isSource word <;> simp [flag]

/-- No file is read exactly if no word stands for one. A first word that is `shielded` does not count. -/
theorem sourceFile?_eq_none_iff {shielded : Bool} {words : List String} :
    sourceFile? shielded words = none ↔ ∀ i, SourceAt words i → i = 0 ∧ shielded = true := by
  induction words generalizing shielded with
  | nil => simp [sourceFile?, not_sourceAt_nil]
  | cons word rest ih =>
    rw [sourceFile?_cons, Option.or_eq_none_iff, ih]
    constructor
    · rintro ⟨later, first⟩ i source
      cases i with
      | zero =>
        have isSource := sourceAt_cons_zero.1 source
        simpa [isSource] using first
      | succ i =>
        obtain ⟨source, unshielded⟩ := sourceAt_cons_succ.1 source
        obtain ⟨zero, flag⟩ := later i source
        exact absurd (List.contains_iff_mem.1 flag) (unshielded zero)
    · intro free
      refine ⟨fun i source => ?_, ?_⟩
      · by_contra counts
        have unshielded : i = 0 → word ∉ valueFlags := fun zero flag => counts ⟨zero, List.contains_iff_mem.2 flag⟩
        exact Nat.succ_ne_zero i (free (i + 1) (sourceAt_cons_succ.2 ⟨source, unshielded⟩)).1
      · cases isSource : Invocation.isSource word with
        | false => rfl
        | true => simp [(free 0 (sourceAt_cons_zero.2 isSource)).2]

/-- The file that is read is the last word that stands for one. It is no `shielded` first word. -/
theorem sourceFile?_eq_some {shielded : Bool} {words : List String} {file : String}
    (found : sourceFile? shielded words = some file) :
    ∃ i, SourceAt words i ∧ (i = 0 → shielded = false) ∧ words[i]? = some file ∧ ∀ j, SourceAt words j → j ≤ i := by
  induction words generalizing shielded with
  | nil => simp [sourceFile?] at found
  | cons word rest ih =>
    rw [sourceFile?_cons] at found
    cases later : sourceFile? (valueFlags.contains word) rest with
    | some other =>
      rw [later] at found
      cases found
      obtain ⟨i, source, unshielded, there, last⟩ := ih later
      refine ⟨i + 1, sourceAt_cons_succ.2 ⟨source, ?_⟩, by simp, there, ?_⟩
      · simpa using unshielded
      · intro j source
        cases j with
        | zero => exact Nat.zero_le _
        | succ j => exact Nat.succ_le_succ (last j (sourceAt_cons_succ.1 source).1)
    | none =>
      rw [later, Option.none_or] at found
      split at found
      case isFalse => cases found
      case isTrue first =>
        obtain rfl := Option.some.inj found
        obtain ⟨isSource, unshielded⟩ : Invocation.isSource word = true ∧ shielded = false := by simpa using first
        refine ⟨0, sourceAt_cons_zero.2 isSource, fun _ => unshielded, rfl, ?_⟩
        intro j source
        cases j with
        | zero => exact Nat.le_refl 0
        | succ j =>
          -- A later word that stands for a source file would be the value of this one, which is none of the options.
          obtain ⟨source, other⟩ := sourceAt_cons_succ.1 source
          obtain ⟨zero, flag⟩ := sourceFile?_eq_none_iff.1 later j source
          exact absurd (List.contains_iff_mem.1 flag) (other zero)

/-- **The source file is the last word that stands for one**, and there is none exactly if no word does. -/
theorem sourceFile?_eq_some_iff {words : List String} {file : String} :
    sourceFile? false words = some file ↔
      ∃ i, SourceAt words i ∧ words[i]? = some file ∧ ∀ j, SourceAt words j → j ≤ i := by
  constructor
  · intro found
    obtain ⟨i, source, -, there, last⟩ := sourceFile?_eq_some found
    exact ⟨i, source, there, last⟩
  · rintro ⟨i, source, there, last⟩
    cases found : sourceFile? false words with
    | none => exact absurd (sourceFile?_eq_none_iff.1 found i source).2 Bool.false_ne_true
    | some other =>
      obtain ⟨i', source', -, there', last'⟩ := sourceFile?_eq_some found
      have same : i = i' := Nat.le_antisymm (last' i source) (last i' source')
      rw [← same, there] at there'
      exact there'.symm

/-! ## Words of a line -/

/-- The non-empty pieces between the spaces of a text. -/
def pieces (text : List Char) : List (List Char) :=
  (text.splitOn ' ').filter (!·.isEmpty)

/-- The text before the first space of a line, or the whole line. -/
def firstWord (line : String) : String :=
  String.ofList (line.toList.takeWhile (· != ' '))

/-- The non-empty pieces between the spaces behind it. -/
def laterWords (line : String) : List String :=
  (pieces (line.toList.dropWhile (· != ' '))).map String.ofList

@[simp] theorem pieces_nil : pieces [] = [] := rfl

@[simp] theorem pieces_space (rest : List Char) : pieces (' ' :: rest) = pieces rest := by
  simp [pieces, List.splitOn_cons_eq_if_modifyHead]

/-- A text is split into what stands before its first space and what its pieces are behind that. -/
theorem splitOn_space (text : List Char) :
    ∃ behind, text.splitOn ' ' = text.takeWhile (· != ' ') :: behind ∧
      behind.filter (!·.isEmpty) = pieces (text.dropWhile (· != ' ')) := by
  induction text with
  | nil => exact ⟨[], rfl, rfl⟩
  | cons c rest ih =>
    obtain ⟨behind, split, filled⟩ := ih
    rw [List.splitOn_cons_eq_if_modifyHead, split]
    by_cases space : c = ' '
    · subst space
      refine ⟨rest.splitOn ' ', by simp [split], ?_⟩
      rw [List.dropWhile_cons_of_neg (by simp), pieces_space, pieces]
    · exact ⟨behind, by simp [space], by simp [space, filled]⟩

/-- A text that begins with no space begins with its first piece. -/
theorem pieces_cons {c : Char} (other : c ≠ ' ') (rest : List Char) :
    pieces (c :: rest) = (c :: rest.takeWhile (· != ' ')) :: pieces (rest.dropWhile (· != ' ')) := by
  obtain ⟨behind, split, filled⟩ := splitOn_space rest
  rw [← filled, pieces, List.splitOn_cons_eq_if_modifyHead, split]
  simp [other]

theorem wordsOf_eq (line : String) : wordsOf line = (firstWord line, laterWords line) := by
  obtain ⟨behind, split, filled⟩ := splitOn_space line.toList
  rw [wordsOf, split, firstWord, laterWords, ← filled]

/-- A line is a call if its first word is a compiler and one of the others is read as the source file. -/
theorem ofLine?_eq_some_iff {line : String} {call : Invocation} :
    ofLine? line = some call ↔
      isCompiler (firstWord line) = true ∧ sourceFile? false (laterWords line) = some call.file ∧
        call.arguments = firstWord line :: (laterWords line).map withoutBackslashes := by
  rw [ofLine?, wordsOf_eq]
  dsimp only
  obtain ⟨file, arguments⟩ := call
  by_cases compiler : isCompiler (firstWord line) = true
  · rw [if_pos compiler, Option.map_eq_some_iff]
    simp only [mk.injEq, compiler, true_and]
    constructor
    · rintro ⟨_, found, rfl, rfl⟩
      exact ⟨found, rfl⟩
    · rintro ⟨found, rfl⟩
      exact ⟨file, found, rfl, rfl⟩
  · simp [compiler]

/-- A call has its compiler at least. -/
theorem arguments_of_ofLine? {line : String} {call : Invocation} (read : ofLine? line = some call) :
    call.arguments ≠ [] := by
  rw [(ofLine?_eq_some_iff.1 read).2.2]
  exact List.cons_ne_nil _ _

/-- The empty word is no compiler. -/
theorem isCompiler_empty : isCompiler "" = false := by decide

/-- A compiler is known by the name of its file. -/
theorem isCompiler_iff {program : String} :
    isCompiler program = true ↔
      ∃ name, (Path.mk program).fileName? = some name ∧ ∃ driver ∈ driverNames, driver.toList <:+: name.toList := by
  unfold isCompiler
  cases (Path.mk program).fileName? with
  | none => simp
  | some name => simp [Text.occursIn_iff]

/-- **A call can be told word by word.** A line is a call if and only if the file name of its first word names a
compiler driver and some later word stands for a source file: it ends as one does, and the word before it, if that is
not the first of the line, is no option that takes a value. The file is then the last such word as it is printed, and
the arguments are the first word as it is printed and the later ones in order without their backslashes. In a run of
options that take values only the word behind the last one is a value: the words before the run and those behind the
value stand for what they stand for without it. -/
theorem ofLine?_eq_some_iff_sourceAt (line : String) :
    ((ofLine? line).isSome = true ↔
      (∃ name, (Path.mk (firstWord line)).fileName? = some name ∧
        ∃ driver ∈ driverNames, driver.toList <:+: name.toList) ∧ ∃ i, SourceAt (laterWords line) i) ∧
    (∀ call, ofLine? line = some call →
      (∃ i, SourceAt (laterWords line) i ∧ (laterWords line)[i]? = some call.file ∧
        ∀ j, SourceAt (laterWords line) j → j ≤ i) ∧
      call.arguments =
        firstWord line :: (laterWords line).map fun word => String.ofList (word.toList.filter (· != '\\'))) ∧
    ∀ front flags value back, laterWords line = front ++ flags ++ value :: back → flags ≠ [] →
      (∀ flag ∈ flags, flag ∈ valueFlags) → value ∉ valueFlags → ∀ i, SourceAt (laterWords line) i ↔
        SourceAt front i ∨ ∃ j, i = front.length + flags.length + 1 + j ∧ SourceAt back j := by
  refine ⟨?_, ?_, ?_⟩
  · rw [← isCompiler_iff, Option.isSome_iff_exists]
    constructor
    · rintro ⟨call, read⟩
      obtain ⟨compiler, found, -⟩ := ofLine?_eq_some_iff.1 read
      obtain ⟨i, source, -⟩ := sourceFile?_eq_some_iff.1 found
      exact ⟨compiler, i, source⟩
    · rintro ⟨compiler, i, source⟩
      cases found : sourceFile? false (laterWords line) with
      | none => exact absurd (sourceFile?_eq_none_iff.1 found i source).2 Bool.false_ne_true
      | some file => exact ⟨⟨file, _⟩, ofLine?_eq_some_iff.2 ⟨compiler, found, rfl⟩⟩
  · intro call read
    obtain ⟨-, found, arguments⟩ := ofLine?_eq_some_iff.1 read
    exact ⟨sourceFile?_eq_some_iff.1 found, arguments⟩
  · intro front flags value back split run all other i
    rw [split]
    exact sourceAt_append_run front run all other back i

/-- Of two options in a row only the second one takes a value. -/
example : (ofLine? "gcc -o -MF a.c b.c -o c.c").map file = some "b.c" := by decide +kernel

end CompileDb.Make.Invocation
