import CompileDb.Utility.Sort
import Mathlib.Data.List.Chain

/-!
# Sorted lines are in order

Every way of comparing keys puts them in a row: of any two keys one does not come behind the other, and what comes behind
something comes behind all that this comes behind (`Order.transCmp`). So the lines that come out of sorting are in order
whatever the keys are (`Plan.pairwise_sorted`), they are the lines that went in (`Plan.perm_sorted`), and what was in
order stays as it was (`Plan.sublist_sorted`).
-/

namespace CompileDb.Utility

open Std (OrientedCmp ReflCmp TransCmp)

/-! ## Numbers -/

instance : TransCmp compareTexts := inferInstanceAs (TransCmp (compareOn String.ofList))

theorem compare_mul_right {m n k : Int} (pos : 0 < k) : compare (m * k) (n * k) = compare m n := by
  simp only [Int.compare_eq_ite_lt, Int.mul_lt_mul_right pos]

namespace Scaled

/-- A number in units of a power of ten that is not above its own. -/
def unitsAt (low : Int) (n : Scaled) : Int := n.digits * Nat.pow 10 (n.power - low).toNat

/-- A finer unit multiplies the count by a power of ten. -/
theorem unitsAt_of_le {low mid : Int} (le : low ≤ mid) {n : Scaled} (fits : mid ≤ n.power) :
    n.unitsAt low = n.unitsAt mid * Nat.pow 10 (mid - low).toNat := by
  have apart : (n.power - low).toNat = (n.power - mid).toNat + (mid - low).toNat := by omega
  rw [unitsAt, unitsAt, apart, Nat.pow_eq, Nat.pow_add, Int.natCast_mul, Int.mul_assoc]
  rfl

/-- Numbers may be compared in units of any power of ten that is not above theirs. -/
theorem compare_eq_of_le {low : Int} {a b : Scaled} (first : low ≤ a.power) (second : low ≤ b.power) :
    a.compare b = Ord.compare (a.unitsAt low) (b.unitsAt low) := by
  have below : low ≤ min a.power b.power := Int.le_min.2 ⟨first, second⟩
  have pos : (0 : Int) < Nat.pow 10 (min a.power b.power - low).toNat :=
    Int.natCast_pos.2 (Nat.pow_pos (by decide))
  rw [unitsAt_of_le below (Int.min_le_left ..), unitsAt_of_le below (Int.min_le_right ..), compare_mul_right pos]
  rfl

instance : TransCmp Scaled.compare where
  eq_swap {a b} := by
    have first := Int.min_le_left a.power b.power
    have second := Int.min_le_right a.power b.power
    rw [compare_eq_of_le first second, compare_eq_of_le second first]
    exact OrientedCmp.eq_swap
  isLE_trans {a b c} ab bc := by
    let low := min a.power (min b.power c.power)
    have first : low ≤ a.power := Int.min_le_left ..
    have second : low ≤ b.power := Int.le_trans (Int.min_le_right ..) (Int.min_le_left ..)
    have third : low ≤ c.power := Int.le_trans (Int.min_le_right ..) (Int.min_le_right ..)
    rw [compare_eq_of_le first second] at ab
    rw [compare_eq_of_le second third] at bc
    rw [compare_eq_of_le first third]
    exact TransCmp.isLE_trans ab bc

end Scaled

instance : TransCmp compareNumbers where
  eq_swap {a b} := by
    cases a with
    | none => cases b <;> rfl
    | some a =>
      cases b with
      | none => rfl
      | some b => exact (OrientedCmp.eq_swap : Scaled.compare a.1 b.1 = _)
  isLE_trans {a b c} ab bc := by
    cases a with
    | none => cases c <;> rfl
    | some a =>
      cases b with
      | none => cases ab
      | some b =>
        cases c with
        | none => cases bc
        | some c => exact (TransCmp.isLE_trans ab bc : (Scaled.compare a.1 c.1).isLE)

/-! ## Versions -/

/-- A text goes on with a character that is no digit. -/
def isWordy (text : List Char) : Bool := text.head?.any (!·.isDigit)

/-- What the digits at the front of a text are worth. -/
def frontValue (text : List Char) : Nat := (Shell.decimal? (text.takeWhile Char.isDigit)).getD 0

theorem compareVersions_nil (fuel : Nat) : compareVersions fuel [] [] = .eq := by
  cases fuel <;> rfl

theorem compareVersions_succ (fuel : Nat) (a b : List Char) :
    compareVersions (fuel + 1) a b =
      if isWordy a || isWordy b then
        (compare (versionRank a.head?) (versionRank b.head?)).then (compareVersions fuel (a.drop 1) (b.drop 1))
      else
        (compare (frontValue a) (frontValue b)).then
          (compareVersions fuel (a.dropWhile Char.isDigit) (b.dropWhile Char.isDigit)) := by
  rw [compareVersions]
  dsimp only
  split
  case isTrue empty =>
    obtain ⟨rfl, rfl⟩ : a = [] ∧ b = [] := by simpa using empty
    exact (compareVersions_nil fuel).symm
  case isFalse =>
    split
    case isTrue wordy =>
      rw [if_pos (show (isWordy a || isWordy b) = true from wordy)]
      cases compare (versionRank a.head?) (versionRank b.head?) <;> rfl
    case isFalse plain =>
      rw [if_neg (show ¬ (isWordy a || isWordy b) = true from plain)]
      unfold frontValue
      split
      case h_1 same => rw [same, Ordering.eq_then]
      case h_2 other =>
        rcases order : compare _ _ with _ | _ | _
        · rfl
        · exact absurd order other
        · rfl

/-- A digit and the end of a text have the same rank, and nothing else has it. -/
theorem versionRank_eq_one_iff {text : List Char} : versionRank text.head? = 1 ↔ isWordy text = false := by
  cases text with
  | nil => simp [versionRank, isWordy]
  | cons c rest =>
    rw [List.head?_cons, isWordy, List.head?_cons, Option.any_some]
    unfold versionRank
    split
    case h_1 tilde =>
      cases tilde
      decide
    case h_2 nothing => cases nothing
    case h_3 same =>
      cases same
      cases digit : c.isDigit with
      | true => simp
      | false =>
        rw [if_neg Bool.false_ne_true]
        split <;> simp

theorem length_dropWhile_le (text : List Char) : (text.dropWhile Char.isDigit).length ≤ text.length :=
  (List.dropWhile_sublist _).length_le

theorem length_dropWhile_lt {text : List Char} (plain : isWordy text = false) (filled : text ≠ []) :
    (text.dropWhile Char.isDigit).length < text.length := by
  cases text with
  | nil => exact absurd rfl filled
  | cons c rest =>
    have digit : c.isDigit = true := by simpa [isWordy] using plain
    rw [List.dropWhile_cons_of_pos digit]
    exact Nat.lt_succ_of_le (length_dropWhile_le rest)

/-- With fuel for both texts, more of it makes no difference. -/
theorem compareVersions_fuel {fuel fuel' : Nat} {a b : List Char} (enough : a.length + b.length < fuel)
    (enough' : a.length + b.length < fuel') : compareVersions fuel a b = compareVersions fuel' a b := by
  induction fuel generalizing fuel' a b with
  | zero => cases enough
  | succ fuel ih =>
    obtain ⟨fuel', rfl⟩ := Nat.exists_eq_succ_of_ne_zero (Nat.ne_of_gt (Nat.zero_lt_of_lt enough'))
    rw [compareVersions_succ, compareVersions_succ]
    by_cases filled : a = [] ∧ b = []
    · obtain ⟨rfl, rfl⟩ := filled
      simp [compareVersions_nil]
    · have filled : 0 < a.length + b.length := by
        rw [← List.length_append, List.length_pos_iff]
        simpa using filled
      split
      case isTrue =>
        have shorter : (a.drop 1).length + (b.drop 1).length < a.length + b.length := by
          simp only [List.length_drop]
          omega
        exact congrArg (Ordering.then _) (ih (by omega) (by omega))
      case isFalse plain =>
        obtain ⟨plainA, plainB⟩ : isWordy a = false ∧ isWordy b = false := by simpa using plain
        have shorter : (a.dropWhile Char.isDigit).length + (b.dropWhile Char.isDigit).length < a.length + b.length := by
          have leA := length_dropWhile_le a
          have leB := length_dropWhile_le b
          rcases Nat.eq_zero_or_pos a.length with emptyA | filledA
          · have ltB := length_dropWhile_lt plainB (List.length_pos_iff.1 (by omega))
            omega
          · have ltA := length_dropWhile_lt plainA (List.length_pos_iff.1 filledA)
            omega
        exact congrArg (Ordering.then _) (ih (by omega) (by omega))

/-- Exchanging two versions exchanges their order. -/
theorem compareVersions_swap (fuel : Nat) (a b : List Char) :
    compareVersions fuel a b = (compareVersions fuel b a).swap := by
  induction fuel generalizing a b with
  | zero => rfl
  | succ fuel ih =>
    rw [compareVersions_succ, compareVersions_succ, Bool.or_comm]
    split
    · rw [Ordering.swap_then, ← ih, ← OrientedCmp.eq_swap]
    · rw [Ordering.swap_then, ← ih, ← OrientedCmp.eq_swap]

/-- Ranks and values are compared before what is behind them. -/
theorem isLE_then_trans {m n k : Nat} {first second both : Ordering} (mn : ((compare m n).then first).isLE)
    (nk : ((compare n k).then second).isLE) (rest : first.isLE → second.isLE → both.isLE) :
    ((compare m k).then both).isLE := by
  rw [Ordering.isLE_then_iff_or] at mn nk ⊢
  rcases mn with lt | ⟨eq, le⟩
  · rcases nk with lt' | ⟨eq', -⟩
    · exact .inl (TransCmp.lt_trans lt lt')
    · exact .inl (TransCmp.lt_of_lt_of_eq lt eq')
  · rcases nk with lt' | ⟨eq', le'⟩
    · exact .inl (TransCmp.lt_of_eq_of_lt eq lt')
    · exact .inr ⟨TransCmp.eq_trans eq eq', rest le le'⟩

/-- What comes no later has no higher rank. -/
theorem versionRank_le_of_isLE {fuel : Nat} {a b : List Char} (le : (compareVersions (fuel + 1) a b).isLE) :
    versionRank a.head? ≤ versionRank b.head? := by
  rw [compareVersions_succ] at le
  split at le
  case isTrue =>
    rcases Ordering.isLE_then_iff_or.1 le with lt | ⟨eq, -⟩
    · exact Nat.le_of_lt (Nat.compare_eq_lt.1 lt)
    · exact Nat.le_of_eq (Nat.compare_eq_eq.1 eq)
  case isFalse plain =>
    obtain ⟨plainA, plainB⟩ : isWordy a = false ∧ isWordy b = false := by simpa using plain
    exact Nat.le_of_eq ((versionRank_eq_one_iff.2 plainA).trans (versionRank_eq_one_iff.2 plainB).symm)

/-- The order of versions is transitive. -/
theorem compareVersions_trans {fuel : Nat} {a b c : List Char} (ab : (compareVersions fuel a b).isLE)
    (bc : (compareVersions fuel b c).isLE) : (compareVersions fuel a c).isLE := by
  induction fuel generalizing a b c with
  | zero => rfl
  | succ fuel ih =>
    have rankAB := versionRank_le_of_isLE ab
    have rankBC := versionRank_le_of_isLE bc
    rw [compareVersions_succ] at ab bc ⊢
    rcases Nat.lt_or_ge (versionRank a.head?) (versionRank c.head?) with lt | ge
    · -- Two ranks, one of which is not that of a digit.
      have wordy : (isWordy a || isWordy c) = true := by
        cases plainA : isWordy a with
        | true => rfl
        | false =>
          cases plainC : isWordy c with
          | true => rfl
          | false => rw [versionRank_eq_one_iff.2 plainA, versionRank_eq_one_iff.2 plainC] at lt; cases Nat.lt_irrefl _ lt
      rw [if_pos wordy]
      exact Ordering.isLE_then_iff_or.2 (.inl (Nat.compare_eq_lt.2 lt))
    · -- One rank, so all three go on in the same way.
      have same {s t : List Char} (rank : versionRank s.head? = versionRank t.head?) : isWordy s = isWordy t := by
        rw [Bool.eq_iff_iff, ← Bool.not_eq_false, ← Bool.not_eq_false, ← versionRank_eq_one_iff, rank,
          versionRank_eq_one_iff]
      have wordyB : isWordy b = isWordy a := same (by omega)
      have wordyC : isWordy c = isWordy a := same (by omega)
      rw [wordyB, Bool.or_self] at ab
      rw [wordyB, wordyC, Bool.or_self] at bc
      rw [wordyC, Bool.or_self]
      cases wordy : isWordy a with
      | true =>
        rw [wordy] at ab bc
        exact isLE_then_trans ab bc ih
      | false =>
        rw [wordy] at ab bc
        exact isLE_then_trans ab bc ih

/-! ## Keys -/

/-- Comparing by a key is as transitive as the keys are. -/
theorem transCmp_on {α β : Type} (cmp : β → β → Ordering) [TransCmp cmp] (f : α → β) :
    TransCmp fun a b => cmp (f a) (f b) where
  eq_swap := OrientedCmp.eq_swap
  isLE_trans := TransCmp.isLE_trans

theorem transCmp_eq {α : Type} : TransCmp fun _ _ : α => Ordering.eq where
  eq_swap := rfl
  isLE_trans _ _ := rfl

/-- Comparing by one order and then by another is as transitive as both are. -/
theorem transCmp_then {α : Type} {cmp cmp' : α → α → Ordering} (first : TransCmp cmp) (second : TransCmp cmp') :
    TransCmp fun a b => (cmp a b).then (cmp' a b) :=
  inferInstanceAs (TransCmp (compareLex cmp cmp'))

theorem transCmp_swap {α : Type} {cmp : α → α → Ordering} [TransCmp cmp] : TransCmp fun a b => (cmp a b).swap := by
  have swapped : (fun a b => (cmp a b).swap) = fun a b => cmp b a := by
    funext a b
    exact OrientedCmp.eq_swap.symm
  rw [swapped]
  exact TransCmp.opposite

namespace Order

theorem transCmp_version : TransCmp (compareMeasured .version) where
  eq_swap {a b} := by
    change compareVersions _ a b = (compareVersions _ b a).swap
    rw [compareVersions_swap, Nat.add_comm a.length]
  isLE_trans {a b c} ab bc := by
    -- One amount of fuel is enough for all three pairs.
    let fuel := a.length + b.length + c.length + 1
    change (compareVersions _ a b).isLE at ab
    change (compareVersions _ b c).isLE at bc
    change (compareVersions _ a c).isLE
    rw [compareVersions_fuel (Nat.lt_succ_self _) (show _ < fuel by omega)] at ab bc ⊢
    exact compareVersions_trans ab bc

/-- Every measure orders the lines. -/
theorem transCmp_measured (m : Measure) : TransCmp (compareMeasured m) := by
  cases m with
  | text => exact inferInstanceAs (TransCmp compareTexts)
  | number => exact transCmp_on Scaled.compare fun text => ((Scaled.ofFront false text).getD (⟨0, 0⟩, [])).1
  | scaled => exact transCmp_on compareNumbers (Scaled.ofFront true)
  | size =>
    let number (text : List Char) := (Scaled.ofFront false text).getD (⟨0, 0⟩, [])
    exact transCmp_then (transCmp_on Ord.compare fun text => (number text).1.sizeOf (number text).2)
      (transCmp_on Scaled.compare fun text => (number text).1)
  | month => exact transCmp_on Ord.compare monthOf
  | version => exact transCmp_version

/-- **Keys are compared in a consistent way**, however they are compared. -/
theorem transCmp (o : Order) : TransCmp o.compare := by
  have measured := transCmp_measured o.measure
  have essential : TransCmp fun a b => compareTexts (o.essence a) (o.essence b) := transCmp_on compareTexts o.essence
  unfold Order.compare
  dsimp only
  by_cases text : o.measure = .text <;> cases o.reversed <;> simp only [text, if_true, if_false, Bool.false_eq_true]
  · exact essential
  · exact transCmp_swap
  · exact measured
  · exact transCmp_swap

end Order

/-! ## Repeated lines -/

section Repeats

variable {α : Type} {same : α → α → Bool} {l kept : List α} {a : α}

theorem isChain_iff_zip {r : α → α → Prop} :
    l.IsChain r ↔ ∀ pair ∈ l.zip (l.drop 1), r pair.1 pair.2 := by
  induction l with
  | nil => simp
  | cons a l ih =>
    cases l with
    | nil => simp
    | cons b l => rw [List.isChain_cons_cons, ih]; simp

/-- A line is kept unless it is the same as the last one that was. -/
def keepNew (same : α → α → Bool) (kept : List α) (a : α) : List α :=
  if kept.head?.any (same · a) then kept else a :: kept

/-- What is kept of lines, last one first: no line is the same as the one kept before it, and every line is the same as
some that is kept. -/
structure Kept (same : α → α → Bool) (l kept : List α) : Prop where
  sublist : kept.reverse.Sublist l
  apart : kept.IsChain fun later earlier => same earlier later = false
  stands : ∀ a ∈ l, ∃ b ∈ kept, same b a = true

/-- A line like the last one kept is dropped, and any other is kept. -/
theorem Kept.concat (h : Kept same l kept) (alike : same a a = true) : Kept same (l ++ [a]) (keepNew same kept a) := by
  unfold keepNew
  split
  case isTrue repeated =>
    obtain ⟨b, last, like⟩ := (Option.any_eq_true ..).1 repeated
    refine ⟨h.sublist.trans (List.sublist_append_left l [a]), h.apart, fun c mem => ?_⟩
    rcases List.mem_append.1 mem with mem | mem
    · exact h.stands c mem
    · exact ⟨b, List.mem_of_mem_head? last, List.mem_singleton.1 mem ▸ like⟩
  case isFalse new =>
    refine ⟨?_, ?_, fun c mem => ?_⟩
    · rw [List.reverse_cons]
      exact h.sublist.append_right [a]
    · cases kept with
      | nil => exact .singleton a
      | cons b kept => exact .cons_cons (by simpa using new) h.apart
    · rcases List.mem_append.1 mem with mem | mem
      · obtain ⟨b, stays, like⟩ := h.stands c mem
        exact ⟨b, List.mem_cons_of_mem a stays, like⟩
      · exact ⟨a, List.mem_cons_self, List.mem_singleton.1 mem ▸ alike⟩

/-- Of neighbours that are alike only the first is kept. -/
theorem kept_withoutRepeats (alike : ∀ a, same a a = true) (l : List α) : Kept same l (withoutRepeats same l).reverse := by
  have all : ∀ (rest seen kept : List α), Kept same seen kept →
      Kept same (seen ++ rest) (rest.foldl (keepNew same) kept) := by
    intro rest
    induction rest with
    | nil =>
      intro seen kept h
      rwa [List.append_nil]
    | cons a rest ih =>
      intro seen kept h
      have later := ih (seen ++ [a]) _ (h.concat (alike a))
      rwa [List.append_assoc] at later
  have whole := all l [] [] ⟨List.nil_sublist _, .nil, List.forall_mem_nil _⟩
  rw [withoutRepeats, List.reverse_reverse]
  exact whole

end Repeats

/-! ## Lines -/

namespace Plan

variable (p : Plan)

/-- The keys order the lines, one after the other. -/
theorem transCmp_keys : TransCmp p.compareKeys := by
  have byKeys : ∀ (keys : List Key) (before : List Char → List Char → Ordering), TransCmp before →
      TransCmp fun a b =>
        keys.foldl (fun o k => o.then (k.order.compare (k.part p.separator a) (k.part p.separator b))) (before a b) := by
    intro keys
    induction keys with
    | nil => exact fun _ trans => trans
    | cons k keys ih =>
      intro before trans
      have byKey : TransCmp k.order.compare := k.order.transCmp
      exact ih _ (transCmp_then trans (transCmp_on k.order.compare (k.part p.separator)))
  unfold compareKeys
  cases p.keys.isEmpty with
  | true => exact p.usual.transCmp
  | false => exact byKeys p.keys (fun _ _ => .eq) transCmp_eq

/-- What decides between lines with the same keys: the lines as they are, unless such lines are to stay as they were. -/
def compareRest (a b : List Char) : Ordering :=
  if p.isStable || p.isUnique then .eq else if p.usual.reversed then (compareTexts a b).swap else compareTexts a b

theorem transCmp_rest : TransCmp p.compareRest := by
  unfold compareRest
  split
  · exact transCmp_eq
  · split
    · exact transCmp_swap
    · exact inferInstance

/-- Lines are in order when the keys say so or, at a tie, the last resort does. -/
theorem inOrder_iff {a b : List Char} : p.inOrder a b = true ↔ ((p.compareKeys a b).then (p.compareRest a b)).isLE := by
  rw [inOrder, bne_iff_ne, Ordering.isLE_iff_ne_gt]
  rfl

theorem transCmp : TransCmp fun a b => (p.compareKeys a b).then (p.compareRest a b) :=
  transCmp_then p.transCmp_keys p.transCmp_rest

theorem inOrder_trans (a b c : List Char) (ab : p.inOrder a b = true) (bc : p.inOrder b c = true) :
    p.inOrder a c = true := by
  have trans := p.transCmp
  rw [inOrder_iff] at ab bc ⊢
  exact trans.isLE_trans ab bc

/-- Of two lines one does not come behind the other. -/
theorem inOrder_total (a b : List Char) : (p.inOrder a b || p.inOrder b a) = true := by
  have trans := p.transCmp
  rw [Bool.or_eq_true, inOrder_iff, inOrder_iff, trans.eq_swap]
  cases (p.compareKeys b a).then (p.compareRest b a) <;> simp

/-- Two lines have the same keys. -/
def isAlike (a b : List Char) : Bool := p.compareKeys a b == .eq

theorem isAlike_refl (a : List Char) : p.isAlike a a = true := by
  have trans := p.transCmp_keys
  rw [isAlike, beq_iff_eq]
  exact ReflCmp.compare_self

/-- A unique sort keeps one line of each kind. -/
theorem kept_sorted (unique : p.isUnique = true) (lines : List (List Char)) :
    Kept p.isAlike (lines.mergeSort p.inOrder) (p.sorted lines).reverse := by
  unfold sorted
  dsimp only
  rw [if_pos unique]
  exact kept_withoutRepeats p.isAlike_refl _

theorem sorted_of_not_unique (unique : p.isUnique = false) (lines : List (List Char)) :
    p.sorted lines = lines.mergeSort p.inOrder := by
  simp [sorted, unique]

/-- **Sorted lines are in order.** -/
theorem pairwise_sorted (lines : List (List Char)) : (p.sorted lines).Pairwise fun a b => p.inOrder a b = true := by
  have ordered := List.pairwise_mergeSort p.inOrder_trans p.inOrder_total lines
  cases unique : p.isUnique with
  | false => rwa [p.sorted_of_not_unique unique]
  | true =>
    have sublist := (p.kept_sorted unique lines).sublist
    rw [List.reverse_reverse] at sublist
    exact ordered.sublist sublist

/-- Nothing is lost or added by sorting, unless lines with the same keys are left out. -/
theorem perm_sorted (unique : p.isUnique = false) (lines : List (List Char)) : (p.sorted lines).Perm lines := by
  rw [p.sorted_of_not_unique unique]
  exact List.mergeSort_perm lines p.inOrder

/-- Lines that are in order stay in that order. -/
theorem sublist_sorted (unique : p.isUnique = false) {part lines : List (List Char)}
    (ordered : part.Pairwise fun a b => p.inOrder a b = true) (sublist : part.Sublist lines) :
    part.Sublist (p.sorted lines) := by
  rw [p.sorted_of_not_unique unique]
  exact List.sublist_mergeSort p.inOrder_trans p.inOrder_total ordered sublist

/-- **Lines with the same keys stay as they were**, if that is asked for. -/
theorem filter_sorted (unique : p.isUnique = false) (stable : p.isStable = true) (a : List Char)
    (lines : List (List Char)) : (p.sorted lines).filter (p.isAlike a) = lines.filter (p.isAlike a) := by
  have trans := p.transCmp_keys
  have perm := (p.perm_sorted unique lines).filter (p.isAlike a)
  have ordered : (lines.filter (p.isAlike a)).Pairwise fun b c => p.inOrder b c = true := by
    refine List.pairwise_of_forall_mem_list fun b memB c memC => ?_
    have alikeB : p.compareKeys a b = .eq := by simpa [isAlike] using (List.mem_filter.1 memB).2
    have alikeC : p.compareKeys a c = .eq := by simpa [isAlike] using (List.mem_filter.1 memC).2
    have alike : p.compareKeys b c = .eq := by rw [← trans.congr_left alikeB, alikeC]
    simp [inOrder, alike, stable]
  have stays := (p.sublist_sorted unique ordered List.filter_sublist).filter (p.isAlike a)
  rw [List.filter_filter] at stays
  simp only [Bool.and_self] at stays
  exact (stays.eq_of_length perm.length_eq.symm).symm

/-- If lines with the same keys are left out, the keys rise from line to line. -/
theorem rising_sorted (unique : p.isUnique = true) (lines : List (List Char)) :
    (p.sorted lines).Pairwise fun a b => p.compareKeys a b = .lt := by
  have trans := p.transCmp_keys
  have kept := p.kept_sorted unique lines
  have apart : (p.sorted lines).IsChain fun a b => p.isAlike a b = false := by
    simpa [flip] using List.isChain_reverse.2 kept.apart
  have rising : (p.sorted lines).IsChain fun a b => p.compareKeys a b = .lt := by
    have ordered := (p.pairwise_sorted lines).isChain
    rw [isChain_iff_zip] at apart ordered ⊢
    intro pair mem
    have unlike := apart pair mem
    refine (Ordering.isLE_then_iff_or.1 (p.inOrder_iff.1 (ordered pair mem))).resolve_right fun alike => ?_
    simp [isAlike, alike.1] at unlike
  have : Trans (fun a b => p.compareKeys a b = .lt) (fun a b => p.compareKeys a b = .lt)
      (fun a b => p.compareKeys a b = .lt) := ⟨TransCmp.lt_trans⟩
  exact List.isChain_iff_pairwise.1 rising

/-- Lines are left out only if others have the same keys. -/
theorem exists_isAlike_of_mem (unique : p.isUnique = true) {lines : List (List Char)} {a : List Char} (mem : a ∈ lines) :
    ∃ b ∈ p.sorted lines, p.isAlike b a = true := by
  obtain ⟨b, stays, alike⟩ := (p.kept_sorted unique lines).stands a (List.mem_mergeSort.2 mem)
  exact ⟨b, List.mem_reverse.1 stays, alike⟩

/-- **No line is found out of order exactly if all lines are in order.** -/
theorem disorder?_eq_none_iff (unique : p.isUnique = false) (lines : List (List Char)) :
    p.disorder? lines = none ↔ lines.Pairwise fun a b => p.inOrder a b = true := by
  have : Trans (fun a b => p.inOrder a b = true) (fun a b => p.inOrder a b = true)
      (fun a b => p.inOrder a b = true) := ⟨p.inOrder_trans _ _ _⟩
  rw [← List.isChain_iff_pairwise, isChain_iff_zip, ← List.zipIdx_map_fst 0 (lines.zip _), List.forall_mem_map]
  simp [disorder?, unique]

end Plan

end CompileDb.Utility
