import CompileDb.Shell.Formula
import CompileDb.Proofs.Results
import Mathlib.Data.List.Basic

/-!
# Formulas stay within 64 bits

The value of a formula and the values of the variables that it sets are numbers of 64 bits, whatever the formula is and
whatever the variables held. `Within` says of a part of a formula that it keeps to them if everything before it does; it
holds of each operator, and from there of formulas of any depth.
-/

namespace CompileDb.Shell.Formula

/-- A number of 64 bits. -/
def InRange (n : Int) : Prop := -9223372036854775808 ≤ n ∧ n < 9223372036854775808

/-! ## Operators -/

/-- What is left of a number in 64 bits is one of 64 bits. -/
theorem inRange_wrap (n : Int) : InRange (wrap n) := by
  have size : Nat.pow 2 64 = 18446744073709551616 := by decide
  have low := @Int.le_bmod n (Nat.pow 2 64) (by decide)
  have high := @Int.bmod_lt n (Nat.pow 2 64) (by decide)
  rw [size] at low high
  rw [InRange, wrap, size]
  omega

theorem inRange_ofBool (b : Bool) : InRange (ofBool b) := by
  cases b <;> exact ⟨by decide, by decide⟩

/-- A remainder is nearer to zero than what is divided by. -/
theorem inRange_tmod {a b : Int} (h : InRange b) (nonzero : b ≠ 0) : InRange (a.tmod b) := by
  have size : (a.tmod b).natAbs = a.natAbs % b.natAbs := Int.natAbs_tmod a b
  have least := Nat.mod_lt a.natAbs (Int.natAbs_pos.2 nonzero)
  unfold InRange at h ⊢
  omega

/-- A number comes no farther from zero when its last bits are dropped. -/
theorem inRange_fdiv {a : Int} (h : InRange a) {n : Nat} (positive : 0 < n) : InRange (a.fdiv n) := by
  unfold InRange at h ⊢
  rw [Int.fdiv_eq_ediv_of_nonneg a (by omega), Int.le_ediv_iff_mul_le (by omega), Int.ediv_lt_iff_lt_mul (by omega)]
  omega

/-- An operator takes numbers of 64 bits to such a number. -/
theorem inRange_of_apply {operator : String} {a b n : Int} (first : InRange a) (second : InRange b)
    (applied : apply operator a b = .ok n) : InRange n := by
  unfold apply at applied
  split at applied
  case h_2 =>
    split at applied
    · cases applied
    · cases applied
      exact inRange_wrap _
  case h_3 =>
    split at applied
    · cases applied
    · cases applied
      exact inRange_tmod second ‹_›
  case h_7 =>
    cases applied
    exact inRange_fdiv first (Nat.pow_pos (by decide))
  case h_17 =>
    cases applied
    exact second
  case h_8 | h_9 | h_10 | h_11 | h_12 | h_13 =>
    cases applied
    exact inRange_ofBool _
  all_goals
    obtain rfl := Except.ok.inj applied
    exact inRange_wrap _

/-! ## Parts of formulas -/

/-- The numbers that are left to be read and those that were set are of 64 bits. -/
structure Progress.Bounded (p : Progress) : Prop where
  tokens : ∀ n, .number n ∈ p.tokens → InRange n
  settings : ∀ setting ∈ p.settings, InRange setting.2

/-- What is worked out has a property, and keeps to 64 bits if everything before it does. -/
def Within {α : Type} (property : α → Prop) (w : Working α) : Prop :=
  ∀ p : Progress, p.Bounded → ∀ a after, w p = .ok (a, after) → property a ∧ after.Bounded

namespace Within

variable {α β : Type} {property : α → Prop} {property' : β → Prop}

theorem pure {a : α} (h : property a) : Within property (pure a) := by
  rintro p bounded _ _ ⟨⟩
  exact ⟨h, bounded⟩

theorem throw {f : FormulaFault} : Within property (throw f) := by
  rintro p bounded _ _ ⟨⟩

/-- What a first part guarantees may be assumed by the next. -/
theorem bind {w : Working α} {next : α → Working β} (h : Within property w)
    (h' : ∀ a, property a → Within property' (next a)) : Within property' (w >>= next) := by
  intro p bounded b after worked
  obtain ⟨answer, first, rest⟩ := bind_eq_ok_iff.mp worked
  obtain ⟨known, kept⟩ := h p bounded answer.1 answer.2 first
  exact h' answer.1 known answer.2 kept b after rest

theorem get : Within Progress.Bounded get := by
  rintro p bounded _ _ ⟨⟩
  exact ⟨bounded, bounded⟩

theorem set {p : Progress} (h : p.Bounded) : Within (fun _ => True) (set p) := by
  rintro _ _ _ _ ⟨⟩
  exact ⟨trivial, h⟩

/-- A change that keeps to 64 bits may be made at any time. -/
theorem modify {change : Progress → Progress} (h : ∀ p, p.Bounded → (change p).Bounded) :
    Within (fun _ => True) (modify change) := by
  rintro p bounded _ _ ⟨⟩
  exact ⟨trivial, h p bounded⟩

end Within

/-- Passing over tokens keeps to 64 bits. -/
theorem Progress.Bounded.sublist {p : Progress} (h : p.Bounded) {tokens : List Token} (sublist : tokens.Sublist p.tokens) :
    { p with tokens }.Bounded :=
  ⟨fun n mem => h.tokens n (sublist.subset mem), h.settings⟩

theorem within_skip : Within (fun _ => True) skip :=
  .modify fun p bounded => bounded.sublist (List.drop_sublist 1 p.tokens)

theorem within_takeSign (s : String) : Within (fun _ => True) (takeSign s) := by
  refine Within.get.bind fun p bounded => ?_
  split
  case h_1 t rest written =>
    split
    · refine (Within.set (bounded.sublist ?_)).bind fun _ _ => .pure trivial
      rw [written]
      exact List.sublist_cons_self _ _
    · exact .pure trivial
  case h_2 => exact .pure trivial

/-- A number that has passed the check is one of 64 bits. -/
theorem inRange_of_guarded {refused : Prop} [Decidable refused] {value n : Int}
    (guarded : (if refused then none else
      if -Nat.pow 2 63 ≤ value ∧ value < Nat.pow 2 63 then some value else none) = some n) : InRange n := by
  split at guarded
  · cases guarded
  · split at guarded
    case isTrue bounds => exact Option.some.inj guarded ▸ bounds
    case isFalse => cases guarded

/-- A number read from text is one of 64 bits. -/
theorem inRange_of_number? {text : List Char} {n : Int} (read : number? text = some n) : InRange n := by
  unfold number? at read
  dsimp only at read
  split at read
  all_goals exact inRange_of_guarded read

/-- The value of a variable is a number of 64 bits, whatever the environment holds. -/
theorem within_valueOf (environment : String → Option String) (name : String) :
    Within InRange (valueOf environment name) := by
  refine Within.get.bind fun p bounded => ?_
  split
  case h_1 n found =>
    obtain ⟨front, back, settings, -⟩ := List.lookup_eq_some_iff.1 found
    exact .pure (bounded.settings (name, n) (settings ▸ List.mem_append_right _ List.mem_cons_self))
  case h_2 =>
    dsimp only
    split
    case h_1 n read => exact .pure (inRange_of_number? read)
    case h_2 => exact .throw

/-! ## Formulas -/

/-- At some depth, all parts of formulas have values of 64 bits. -/
structure Keeps (environment : String → Option String) (fuel : Nat) : Prop where
  assignment : ∀ silent, Within InRange (assignment environment fuel silent)
  conditional : ∀ silent, Within InRange (conditional environment fuel silent)
  disjunction : ∀ silent, Within InRange (disjunction environment fuel silent)
  conjunction : ∀ silent, Within InRange (conjunction environment fuel silent)
  operation : ∀ silent a limit, InRange a → Within InRange (operation environment fuel silent a limit)
  operand : ∀ silent, Within InRange (operand environment fuel silent)

section

variable {environment : String → Option String} {fuel : Nat}

/-- An assignment stores and gives a number of 64 bits. -/
theorem Keeps.assignment_succ (h : Keeps environment fuel) (silent : Bool) :
    Within InRange (Formula.assignment environment (fuel + 1) silent) := by
  rw [Formula.assignment]
  refine Within.get.bind fun p bounded => ?_
  split
  case h_1 name s rest written =>
    have later : { p with tokens := rest }.Bounded := bounded.sublist (by simp [written])
    have store : ∀ n, InRange n → Within InRange (do
        modify fun p => { p with settings := (name, n) :: p.settings }
        return n) := by
      intro n inRange
      have kept : Within (fun _ => True) (modify fun p => { p with settings := (name, n) :: p.settings }) := by
        refine .modify fun p bounded => ⟨bounded.tokens, fun setting mem => ?_⟩
        rcases List.mem_cons.1 mem with rfl | mem
        · exact inRange
        · exact bounded.settings setting mem
      exact kept.bind fun _ _ => .pure inRange
    split
    case isTrue =>
      refine (Within.set later).bind fun _ _ => (h.assignment silent).bind fun value inRange => ?_
      split
      · exact .pure inRange
      · dsimp only
        split
        · exact (Within.pure inRange).bind store
        · refine (within_valueOf environment name).bind fun old known => ?_
          split
          case h_1 n applied => exact (Within.pure (inRange_of_apply known inRange applied)).bind store
          case h_2 => exact Within.throw.bind store
    case isFalse => exact h.conditional silent
  case h_2 => exact h.conditional silent

/-- A conditional gives what one of its branches gives. -/
theorem Keeps.conditional_succ (h : Keeps environment fuel) (silent : Bool) :
    Within InRange (Formula.conditional environment (fuel + 1) silent) := by
  rw [Formula.conditional]
  refine (h.disjunction silent).bind fun a inRange => (within_takeSign "?").bind fun found _ => ?_
  split
  · refine (h.assignment _).bind fun b inRange' => (within_takeSign ":").bind fun found' _ => ?_
    have last : Within InRange (do
        let c ← Formula.conditional environment fuel (silent || decide (a ≠ 0))
        return if a ≠ 0 then b else c) := by
      refine (h.conditional _).bind fun c inRange => ?_
      split
      · exact .pure inRange'
      · exact .pure inRange
    cases found' with
    | true => exact last
    | false => exact Within.throw.bind fun _ (_ : True) => last
  · exact .pure inRange

/-- A disjunction gives zero or one, or what stands there alone. -/
theorem Keeps.disjunction_succ (h : Keeps environment fuel) (silent : Bool) :
    Within InRange (Formula.disjunction environment (fuel + 1) silent) := by
  rw [Formula.disjunction]
  refine (h.conjunction silent).bind fun a inRange => (within_takeSign "||").bind fun found _ => ?_
  split
  · exact (h.disjunction _).bind fun b _ => .pure (inRange_ofBool _)
  · exact .pure inRange

/-- A conjunction gives zero or one, or what stands there alone. -/
theorem Keeps.conjunction_succ (h : Keeps environment fuel) (silent : Bool) :
    Within InRange (Formula.conjunction environment (fuel + 1) silent) := by
  rw [Formula.conjunction]
  refine (h.operand silent).bind fun a first => (h.operation silent a 8 first).bind fun a inRange =>
    (within_takeSign "&&").bind fun found _ => ?_
  split
  · exact (h.conjunction _).bind fun b _ => .pure (inRange_ofBool _)
  · exact .pure inRange

/-- Each operator is applied to numbers of 64 bits and gives one. -/
theorem Keeps.operation_succ (h : Keeps environment fuel) (silent : Bool) {a : Int} (limit : Nat) (first : InRange a) :
    Within InRange (Formula.operation environment (fuel + 1) silent a limit) := by
  rw [Formula.operation]
  refine Within.get.bind fun p bounded => ?_
  split
  case h_1 s rest written =>
    split
    case h_1 => exact .pure first
    case h_2 r _ =>
      split
      · exact .pure first
      · refine within_skip.bind fun _ _ => (h.operand silent).bind fun b second =>
          (h.operation silent b r second).bind fun b second => ?_
        have later : ∀ n, InRange n → Within InRange (Formula.operation environment fuel silent n limit) :=
          fun n inRange => h.operation silent n limit inRange
        dsimp only
        split
        · exact (Within.pure second).bind later
        · split
          case h_1 n applied => exact (Within.pure (inRange_of_apply first second applied)).bind later
          case h_2 => exact Within.throw.bind later
  case h_2 => exact .pure first

/-- Signs, brackets, numbers and variables give such numbers too. -/
theorem Keeps.operand_succ (h : Keeps environment fuel) (silent : Bool) :
    Within InRange (Formula.operand environment (fuel + 1) silent) := by
  rw [Formula.operand]
  refine Within.get.bind fun p bounded => ?_
  split
  case h_1 n rest written =>
    exact within_skip.bind fun _ _ => .pure (bounded.tokens n (written ▸ List.mem_cons_self))
  case h_2 name rest written =>
    refine within_skip.bind fun _ _ => ?_
    split
    · exact .pure ⟨by decide, by decide⟩
    · exact within_valueOf environment name
  case h_3 =>
    refine within_skip.bind fun _ _ => (h.assignment silent).bind fun a inRange =>
      (within_takeSign ")").bind fun found _ => ?_
    split
    · exact .pure inRange
    · exact .throw
  case h_4 => exact within_skip.bind fun _ _ => h.operand silent
  case h_5 => exact within_skip.bind fun _ _ => (h.operand silent).bind fun a _ => .pure (inRange_wrap _)
  case h_6 => exact within_skip.bind fun _ _ => (h.operand silent).bind fun a _ => .pure (inRange_ofBool _)
  case h_7 =>
    refine within_skip.bind fun _ _ => (h.operand silent).bind fun a inRange => .pure ?_
    unfold InRange at inRange ⊢
    omega
  case h_8 => exact .throw

/-- Formulas of any depth keep to 64 bits. -/
theorem keeps (environment : String → Option String) (fuel : Nat) : Keeps environment fuel := by
  induction fuel with
  | zero =>
    refine ⟨fun _ => ?_, fun _ => ?_, fun _ => ?_, fun _ => ?_, fun _ _ _ _ => ?_, fun _ => ?_⟩
    · rw [Formula.assignment]
      exact .throw
    · rw [Formula.conditional]
      exact .throw
    · rw [Formula.disjunction]
      exact .throw
    · rw [Formula.conjunction]
      exact .throw
    · rw [Formula.operation]
      exact .throw
    · rw [Formula.operand]
      exact .throw
  | succ fuel ih =>
    exact ⟨ih.assignment_succ, ih.conditional_succ, ih.disjunction_succ, ih.conjunction_succ,
      fun silent _ => ih.operation_succ silent, ih.operand_succ⟩

end

/-- Numbers that are too large are read as the largest one. -/
theorem inRange_of_mem_tokens {fuel : Nat} {text : List Char} {n : Int} (mem : .number n ∈ tokens fuel text) :
    InRange n := by
  induction fuel generalizing text with
  | zero => simp [tokens] at mem
  | succ fuel ih =>
    cases text with
    | nil => simp [tokens] at mem
    | cons c rest =>
      rw [tokens] at mem
      split at mem
      · exact ih mem
      · split at mem
        · rcases List.mem_cons.1 mem with same | mem
          · cases same
            have size : Nat.pow 2 63 = 9223372036854775808 := by decide
            unfold InRange
            omega
          · exact ih mem
        · split at mem
          · rcases List.mem_cons.1 mem with same | mem
            · cases same
            · exact ih mem
          · split at mem
            all_goals
              rcases List.mem_cons.1 mem with same | mem
              · cases same
              · exact ih mem

/-- **A formula has a value of 64 bits**, and so has each variable that it sets. -/
theorem inRange_value {environment : String → Option String} {text : List Char} {n : Int}
    {settings : List (String × Int)} (worked : value environment text = .ok (n, settings)) :
    InRange n ∧ ∀ setting ∈ settings, InRange setting.2 := by
  unfold value at worked
  dsimp only at worked
  split at worked
  case h_1 => cases worked
  case h_2 n' p ended =>
    split at worked
    case isFalse => cases worked
    case isTrue =>
      have start : Progress.Bounded ⟨tokens text.length text, []⟩ :=
        ⟨fun _ => inRange_of_mem_tokens, List.forall_mem_nil _⟩
      obtain ⟨inRange, bounded⟩ := (keeps environment _).assignment false _ start n' p ended
      cases worked
      exact ⟨inRange, fun setting mem => bounded.settings setting (List.mem_reverse.1 mem)⟩

/-- The largest number and one more is the smallest one. -/
example : (value (fun _ => none) "x = 9223372036854775807, x + 1".toList).isOk = false ∧
    (value (fun _ => none) "(x = 9223372036854775807) + 1".toList).toOption =
      some (-9223372036854775808, [("x", 9223372036854775807)]) := by decide +kernel

end CompileDb.Shell.Formula
