import CompileDb.Utility.Compare
import Mathlib.Data.List.Induction

/-!
# Differences are as small as they can be

The steps between two texts lead from the one to the other (`Difference.leads_between`), and no steps that do so keep
more lines (`Difference.keptCount_le_between`). How many lines can be kept is a number of its own (`Difference.most`),
which the table holds for all ends of both texts; what both texts have at their front and at their back may be kept
beforehand.
-/

namespace CompileDb.Utility.Difference

variable {same : List Char → List Char → Bool} {all all' : List Step} {a b a' b' : List (List Char)} {x y : List Char}

/-! ## Steps that lead somewhere -/

/-- Steps lead from one text to another: lines that are kept are the same in both. -/
inductive Leads (same : List Char → List Char → Bool) : List Step → List (List Char) → List (List Char) → Prop
  | done : Leads same [] [] []
  | keep {all : List Step} {a b : List (List Char)} {x y : List Char} : same x y = true → Leads same all a b →
      Leads same (.keep x :: all) (x :: a) (y :: b)
  | delete {all : List Step} {a b : List (List Char)} {x : List Char} : Leads same all a b →
      Leads same (.delete x :: all) (x :: a) b
  | insert {all : List Step} {a b : List (List Char)} {y : List Char} : Leads same all a b →
      Leads same (.insert y :: all) a (y :: b)

theorem Leads.append (first : Leads same all a b) (second : Leads same all' a' b') :
    Leads same (all ++ all') (a ++ a') (b ++ b') := by
  induction first with
  | done => exact second
  | keep alike _ ih => exact .keep alike ih
  | delete _ ih => exact .delete ih
  | insert _ ih => exact .insert ih

/-- Deleting every line leads to nothing. -/
theorem leads_delete (a : List (List Char)) : Leads same (a.map .delete) a [] := by
  induction a with
  | nil => exact .done
  | cons x a ih => exact .delete ih

/-- Inserting every line leads from nothing. -/
theorem leads_insert (b : List (List Char)) : Leads same (b.map .insert) [] b := by
  induction b with
  | nil => exact .done
  | cons y b ih => exact .insert ih

/-- Whatever the table holds, the steps read off it lead from one side to the other. -/
theorem leads_steps {fuel : Nat} (enough : a.length + b.length < fuel) (rows : List (Array Nat)) (j : Nat) :
    Leads same (steps same fuel rows j a b) a b := by
  induction fuel generalizing rows j a b with
  | zero => cases enough
  | succ fuel ih =>
    cases a with
    | nil =>
      cases b with
      | nil => exact .done
      | cons y b => exact leads_insert (y :: b)
    | cons x a =>
      cases b with
      | nil => exact leads_delete (x :: a)
      | cons y b =>
        simp only [List.length_cons] at enough
        rw [steps]
        split
        case isTrue alike => exact .keep alike (ih (by omega) ..)
        case isFalse =>
          dsimp only
          split
          · exact .delete (ih (by simp only [List.length_cons]; omega) ..)
          · exact .insert (ih (by simp only [List.length_cons]; omega) ..)

/-- Pairs of lines that are the same are kept. -/
theorem leads_keep {pairs : List (List Char × List Char)} (alike : ∀ pair ∈ pairs, same pair.1 pair.2 = true) :
    Leads same ((pairs.map Prod.fst).map .keep) (pairs.map Prod.fst) (pairs.map Prod.snd) := by
  induction pairs with
  | nil => exact .done
  | cons pair pairs ih =>
    obtain ⟨first, rest⟩ := List.forall_mem_cons.1 alike
    exact .keep first (ih rest)

/-! ## How much can be kept -/

/-- How many lines can be kept at most. -/
def most (same : List Char → List Char → Bool) : List (List Char) → List (List Char) → Nat
  | [], _ => 0
  | _ :: _, [] => 0
  | x :: a, y :: b => if same x y then most same a b + 1 else max (most same a (y :: b)) (most same (x :: a) b)

@[simp] theorem most_nil_left (b : List (List Char)) : most same [] b = 0 := by rw [most]

@[simp] theorem most_nil_right (a : List (List Char)) : most same a [] = 0 := by
  cases a <;> rw [most]

/-- Alike heads are kept; otherwise one of them is given up. -/
theorem most_cons_cons : most same (x :: a) (y :: b) =
    if same x y then most same a b + 1 else max (most same a (y :: b)) (most same (x :: a) b) := by
  rw [most]

/-- A number is another one, or one more than that. -/
def OneMore (m n : Nat) : Prop := m ≤ n ∧ n ≤ m + 1

/-- What one more line in `b` does to a text says what one more line in the text does. -/
theorem oneMore_left (right : ∀ b y, OneMore (most same a b) (most same a (y :: b))) (b : List (List Char))
    (x : List Char) : OneMore (most same a b) (most same (x :: a) b) := by
  induction b with
  | nil =>
    rw [most_nil_right, most_nil_right]
    exact ⟨Nat.le_refl _, Nat.zero_le _⟩
  | cons y b ih =>
    obtain ⟨le, le'⟩ := right b y
    obtain ⟨_, below⟩ := ih
    rw [most_cons_cons]
    split
    · exact ⟨le', Nat.succ_le_succ le⟩
    · exact ⟨Nat.le_max_left .., Nat.max_le.2 ⟨Nat.le_succ _, by omega⟩⟩

/-- One more line lengthens the best subsequence by one at most. -/
theorem oneMore_right (a b : List (List Char)) (y : List Char) :
    OneMore (most same a b) (most same a (y :: b)) := by
  induction a generalizing b y with
  | nil =>
    rw [most_nil_left, most_nil_left]
    exact ⟨Nat.le_refl _, Nat.zero_le _⟩
  | cons x a ih =>
    obtain ⟨le, le'⟩ := oneMore_left ih b x
    obtain ⟨_, below⟩ := ih b y
    rw [most_cons_cons]
    split
    · exact ⟨le', Nat.succ_le_succ le⟩
    · exact ⟨Nat.le_max_right .., Nat.max_le.2 ⟨by omega, Nat.le_succ _⟩⟩

/-- A line more on the left never costs a kept one. -/
theorem most_le_cons_left (a b : List (List Char)) (x : List Char) : most same a b ≤ most same (x :: a) b :=
  (oneMore_left (oneMore_right a) b x).1

/-- Nor does one on the right. -/
theorem most_le_cons_right (a b : List (List Char)) (y : List Char) : most same a b ≤ most same a (y :: b) :=
  (oneMore_right a b y).1

/-- How many lines steps keep. -/
def keptCount : List Step → Nat
  | [] => 0
  | .keep _ :: all => keptCount all + 1
  | .delete _ :: all => keptCount all
  | .insert _ :: all => keptCount all

/-- No steps keep more lines than can be kept. -/
theorem Leads.keptCount_le (leads : Leads same all a b) : keptCount all ≤ most same a b := by
  induction leads with
  | done => exact Nat.zero_le _
  | @keep all a b x y alike _ ih =>
    rw [most_cons_cons, if_pos alike]
    exact Nat.succ_le_succ ih
  | @delete all a b x _ ih => exact Nat.le_trans ih (most_le_cons_left a b x)
  | @insert all a b y _ ih => exact Nat.le_trans ih (most_le_cons_right a b y)

/-! ## The table -/

/-- A row of the table: how many lines can be kept of a text and of each end of another one. -/
def row (same : List Char → List Char → Bool) (a b : List (List Char)) : List Nat :=
  (List.range (b.length + 1)).map fun j => most same a (b.drop j)

theorem row_cons (a b : List (List Char)) (y : List Char) :
    row same a (y :: b) = most same a (y :: b) :: row same a b := by
  rw [row, List.length_cons, List.range_succ_eq_map, List.map_cons, List.map_map]
  rfl

/-- A row holds, at each column, the best count for what is left there. -/
theorem getD_row {j : Nat} (le : j ≤ b.length) : (row same a b).toArray.getD j 0 = most same a (b.drop j) := by
  have lt : j < (row same a b).length := by simpa [row] using Nat.lt_succ_of_le le
  simp [row, Nat.lt_succ_of_le le]

/-- One more number at the front of a row, from the row for one line less. The second part is the front of the row. -/
def addNumber (same : List Char → List Char → Bool) (b : Array (List Char)) (line : List Char) (below : Array Nat) (j : Nat)
    (state : List Nat × Nat) : List Nat × Nat :=
  let n := if same line (b.getD j []) then below.getD (j + 1) 0 + 1 else max (below.getD j 0) state.2
  (n :: state.1, n)

/-- A row is found from its end to its front. -/
theorem foldr_addNumber (line : List Char) (a b : List (List Char)) :
    (List.range b.length).foldr (addNumber same b.toArray line (row same a b).toArray) ([0], 0) =
      (row same (line :: a) b, most same (line :: a) b) := by
  have ends : ∀ m k, k + m = b.length →
      (List.range' k m).foldr (addNumber same b.toArray line (row same a b).toArray) ([0], 0) =
        (row same (line :: a) (b.drop k), most same (line :: a) (b.drop k)) := by
    intro m
    induction m with
    | zero =>
      intro k last
      obtain rfl : k = b.length := last
      simp [row]
    | succ m ih =>
      intro k inside
      have lt : k < b.length := by omega
      rw [List.range'_succ, List.foldr_cons, ih (k + 1) (by omega), addNumber, getD_row lt, getD_row (Nat.le_of_lt lt),
        List.drop_eq_getElem_cons lt, row_cons, most_cons_cons]
      simp [lt]
  rw [List.range_eq_range']
  exact ends b.length 0 (Nat.zero_add _)

/-- The table has a row for every end of the first text. -/
theorem commonLengths_eq (a b : List (List Char)) :
    commonLengths same b.toArray a = a.tails.map fun a => (row same a b).toArray := by
  induction a with
  | nil => simp [commonLengths, row, List.map_const']
  | cons line a ih =>
    have below : (commonLengths same b.toArray a).headD #[] = (row same a b).toArray := by
      rw [ih]
      cases a <;> rfl
    have made := @foldr_addNumber same line a b
    rw [commonLengths, below]
    change (List.foldr (addNumber same b.toArray line (row same a b).toArray) ([0], 0) _).1.toArray :: _ = _
    rw [List.size_toArray, made, ih]
    rfl

/-! ## The best steps -/

theorem keptCount_append (all all' : List Step) : keptCount (all ++ all') = keptCount all + keptCount all' := by
  induction all with
  | nil => rw [List.nil_append, keptCount, Nat.zero_add]
  | cons s all ih => cases s <;> simp [keptCount, ih, Nat.add_right_comm]

theorem keptCount_delete (a : List (List Char)) : keptCount (a.map .delete) = 0 := by
  induction a with
  | nil => rfl
  | cons x a ih => exact ih

theorem keptCount_insert (b : List (List Char)) : keptCount (b.map .insert) = 0 := by
  induction b with
  | nil => rfl
  | cons y b ih => exact ih

theorem keptCount_keep (a : List (List Char)) : keptCount (a.map .keep) = a.length := by
  induction a with
  | nil => rfl
  | cons x a ih => exact congrArg Nat.succ ih

/-- The steps that are found by the table keep as many lines as can be kept. -/
theorem keptCount_steps {fuel : Nat} {whole : List (List Char)} {j : Nat} (enough : a.length + b.length < fuel)
    (rest : whole.drop j = b) :
    keptCount (steps same fuel (commonLengths same whole.toArray a) j a b) = most same a b := by
  induction fuel generalizing j a b with
  | zero => cases enough
  | succ fuel ih =>
    cases a with
    | nil =>
      cases b with
      | nil => exact (most_nil_left _).symm
      | cons y b => exact (keptCount_insert (y :: b)).trans (most_nil_left _).symm
    | cons x a =>
      cases b with
      | nil => exact (keptCount_delete (x :: a)).trans (most_nil_right _).symm
      | cons y b =>
        simp only [List.length_cons] at enough
        have lt : j < whole.length := by
          have filled := congrArg List.length rest
          simp only [List.length_drop, List.length_cons] at filled
          omega
        have later : whole.drop (j + 1) = b := by rw [← List.drop_drop, rest, List.drop_one, List.tail_cons]
        have table : commonLengths same whole.toArray (x :: a) =
            (row same (x :: a) whole).toArray :: commonLengths same whole.toArray a := by
          simp [commonLengths_eq]
        have below : (commonLengths same whole.toArray a)[0]? = some (row same a whole).toArray := by
          cases a <;> simp [commonLengths_eq]
        rw [table, steps, most_cons_cons, List.tail_cons]
        split
        case isTrue => exact congrArg Nat.succ (ih (by omega) later)
        case isFalse =>
          have down : ((row same (x :: a) whole).toArray :: commonLengths same whole.toArray a)[1]?.getD #[] =
              (row same a whole).toArray := by
            rw [List.getElem?_cons_succ, below, Option.getD_some]
          rw [down, getD_row (Nat.le_of_lt lt), rest, List.headD_cons, getD_row lt, later]
          dsimp only
          split
          case isTrue le =>
            rw [Nat.max_eq_left le]
            exact ih (by simp only [List.length_cons]; omega) rest
          case isFalse gt =>
            rw [Nat.max_eq_right (Nat.le_of_not_le gt), ← table]
            exact ih (by simp only [List.length_cons]; omega) later

/-! ## Common ends -/

/-- Lines that are the same at the front of both texts may be kept. -/
theorem most_front {pairs : List (List Char × List Char)} (alike : ∀ pair ∈ pairs, same pair.1 pair.2 = true)
    (a b : List (List Char)) :
    most same (pairs.map Prod.fst ++ a) (pairs.map Prod.snd ++ b) = pairs.length + most same a b := by
  induction pairs with
  | nil => exact (Nat.zero_add _).symm
  | cons pair pairs ih =>
    obtain ⟨first, rest⟩ := List.forall_mem_cons.1 alike
    rw [List.map_cons, List.map_cons, List.cons_append, List.cons_append, most_cons_cons, if_pos first, ih rest,
      List.length_cons, Nat.add_right_comm]

/-- A line that is the same at the back of both texts may be kept. -/
theorem most_concat (alike : same x y = true) (a b : List (List Char)) :
    most same (a ++ [x]) (b ++ [y]) = most same a b + 1 := by
  induction a generalizing b with
  | nil =>
    induction b with
    | nil => simp [most_cons_cons, alike]
    | cons y' b ih =>
      rw [List.nil_append] at ih ⊢
      rw [List.cons_append, most_cons_cons, ih]
      simp
  | cons x' a ihA =>
    induction b with
    | nil =>
      have ih := ihA []
      rw [List.nil_append] at ih ⊢
      rw [List.cons_append, most_cons_cons, ih]
      simp
    | cons y' b ihB =>
      have ih := ihA (y' :: b)
      rw [List.cons_append] at ihB ih ⊢
      rw [List.cons_append, most_cons_cons, most_cons_cons, ihA b, ih, ihB]
      split
      · rfl
      · exact Nat.succ_max_succ ..

/-- Lines that are the same at the back of both texts may be kept. -/
theorem most_back {pairs : List (List Char × List Char)} (alike : ∀ pair ∈ pairs, same pair.1 pair.2 = true)
    (a b : List (List Char)) :
    most same (a ++ pairs.map Prod.fst) (b ++ pairs.map Prod.snd) = most same a b + pairs.length := by
  induction pairs using List.reverseRecOn with
  | nil => simp
  | append_singleton pairs pair ih =>
    obtain ⟨front, last⟩ := List.forall_mem_append.1 alike
    simp only [List.map_append, List.map_singleton, ← List.append_assoc, List.length_append, List.length_singleton]
    rw [most_concat (last pair (List.mem_singleton_self pair)), ih front, Nat.add_assoc]

/-! ## The steps between two texts -/

/-- The front of both texts, as far as their lines are the same, in pairs. -/
def commonFront (same : List Char → List Char → Bool) (a b : List (List Char)) : List (List Char × List Char) :=
  (a.zip b).takeWhile fun pair => same pair.1 pair.2

/-- The common front pairs lines that are alike. -/
theorem commonFront_alike (same : List Char → List Char → Bool) (a b : List (List Char)) :
    ∀ pair ∈ commonFront same a b, same pair.1 pair.2 = true := by
  intro pair mem
  have all : (commonFront same a b).all (fun pair => same pair.1 pair.2) = true := List.all_takeWhile
  exact List.all_eq_true.1 all pair mem

/-- The common front is the front of both sides. -/
theorem commonFront_append (same : List Char → List Char → Bool) (a b : List (List Char)) :
    (commonFront same a b).map Prod.fst ++ a.drop (commonFront same a b).length = a ∧
      (commonFront same a b).map Prod.snd ++ b.drop (commonFront same a b).length = b := by
  induction a generalizing b with
  | nil => exact ⟨rfl, rfl⟩
  | cons x a ih =>
    cases b with
    | nil => exact ⟨rfl, rfl⟩
    | cons y b =>
      unfold commonFront at ih ⊢
      rw [List.zip_cons_cons, List.takeWhile_cons]
      split
      · exact ⟨congrArg (x :: ·) (ih b).1, congrArg (y :: ·) (ih b).2⟩
      · exact ⟨rfl, rfl⟩

/-- What is at the front and at the back of both texts is kept, and the rest goes by the table. -/
theorem exists_between_eq (same : List Char → List Char → Bool) (a b : List (List Char)) :
    ∃ (front back : List (List Char × List Char)) (a' b' : List (List Char)),
      (∀ pair ∈ front, same pair.1 pair.2 = true) ∧ (∀ pair ∈ back, same pair.1 pair.2 = true) ∧
      a = front.map Prod.fst ++ (a' ++ back.map Prod.fst) ∧ b = front.map Prod.snd ++ (b' ++ back.map Prod.snd) ∧
      between same a b = (front.map Prod.fst).map .keep ++
        (steps same (a'.length + b'.length + 1) (commonLengths same b'.toArray a') 0 a' b' ++
          (back.map Prod.fst).map .keep) := by
  let front := commonFront same a b
  let restA := a.drop front.length
  let restB := b.drop front.length
  let back := commonFront same restA.reverse restB.reverse
  obtain ⟨wholeA, wholeB⟩ := commonFront_append same a b
  obtain ⟨backA, backB⟩ := commonFront_append same restA.reverse restB.reverse
  refine ⟨front, back.reverse, restA.take (restA.length - back.length), restB.take (restB.length - back.length),
    commonFront_alike same a b, fun pair mem => commonFront_alike same _ _ pair (List.mem_reverse.1 mem), ?_, ?_, ?_⟩
  · rw [List.map_reverse, ← List.reverse_reverse (restA.take _), ← List.drop_reverse, ← List.reverse_append, backA,
      List.reverse_reverse, wholeA]
  · rw [List.map_reverse, ← List.reverse_reverse (restB.take _), ← List.drop_reverse, ← List.reverse_append, backB,
      List.reverse_reverse, wholeB]
  · rw [← List.append_assoc, List.map_reverse]
    simp only [between, List.length_map, List.length_reverse]
    rfl

/-- **The steps between two texts lead from the one to the other.** -/
theorem leads_between (same : List Char → List Char → Bool) (a b : List (List Char)) :
    Leads same (between same a b) a b := by
  obtain ⟨front, back, a', b', frontAlike, backAlike, wholeA, wholeB, eq⟩ := exists_between_eq same a b
  have middle : Leads same (steps same (a'.length + b'.length + 1) (commonLengths same b'.toArray a') 0 a' b') a' b' :=
    leads_steps (Nat.lt_succ_self _) _ 0
  rw [eq, wholeA, wholeB]
  exact (leads_keep frontAlike).append (middle.append (leads_keep backAlike))

/-- They keep as many lines as can be kept. -/
theorem keptCount_between (same : List Char → List Char → Bool) (a b : List (List Char)) :
    keptCount (between same a b) = most same a b := by
  obtain ⟨front, back, a', b', frontAlike, backAlike, wholeA, wholeB, eq⟩ := exists_between_eq same a b
  have middle : keptCount (steps same (a'.length + b'.length + 1) (commonLengths same b'.toArray a') 0 a' b') =
      most same a' b' := keptCount_steps (Nat.lt_succ_self _) rfl
  rw [eq, wholeA, wholeB, most_front frontAlike, most_back backAlike, keptCount_append, keptCount_append, middle,
    keptCount_keep, keptCount_keep, List.length_map, List.length_map]

/-- **No steps from one text to another keep more lines** than those that are found. -/
theorem keptCount_le_between (leads : Leads same all a b) : keptCount all ≤ keptCount (between same a b) :=
  (keptCount_between same a b).symm ▸ leads.keptCount_le

end CompileDb.Utility.Difference
