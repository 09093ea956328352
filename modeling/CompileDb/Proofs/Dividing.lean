import CompileDb.CommandLine.Options

/-!
# Where the options end

An argument may be an option, the value of one, or the place where the options end, and which of them it is depends on
all arguments before it: a value may be any text, also one that reads like an option or like the separator. `split_cuts`
says where the options end, and that the two parts put together are the command line. `Divides` goes through the
arguments one by one, and leaves no choice (`Divides.unique`).
-/

namespace CompileDb.CommandLine

/-! ## Options and their values -/

/-- The argument is an option of this program, with its value or without. -/
def IsOwn (arg : String) : Prop :=
  arg ∈ flagOptions ∨ (∃ option ∈ extraOptions, ∃ value, arg = option ++ value) ∨
    ∃ option ∈ valueOptions, arg = option ∨ ∃ value, arg = option ++ "=" ++ value

/-- The last of these arguments is a bare option whose value is still to come. The value of an option is no option
itself, whatever it looks like. -/
def awaitsValue (before : List String) : Bool :=
  before.foldl (fun awaited arg => !awaited && takesNext arg) false

@[simp] theorem awaitsValue_nil : awaitsValue [] = false := rfl

/-- An argument awaits a value when it takes one and is not itself one. -/
@[simp] theorem awaitsValue_concat (before : List String) (arg : String) :
    awaitsValue (before ++ [arg]) = (!awaitsValue before && takesNext arg) := by
  simp [awaitsValue]

theorem isPrefixOf_toList_iff {front text : String} :
    front.toList.isPrefixOf text.toList = true ↔ ∃ value, text = front ++ value := by
  rw [List.isPrefixOf_iff_prefix]
  constructor
  · rintro ⟨value, split⟩
    exact ⟨String.ofList value, String.toList_injective (by simp [split])⟩
  · rintro ⟨value, rfl⟩
    exact ⟨value.toList, by simp⟩

/-- The options are those whose next argument is their value, and those that stand complete. -/
theorem isOwn_iff {arg : String} : IsOwn arg ↔ takesNext arg = true ∨ isComplete arg = true := by
  have holds (option : String) :
      (option.toList ++ ['=']).isPrefixOf arg.toList = true ↔ ∃ value, arg = option ++ "=" ++ value := by
    rw [← isPrefixOf_toList_iff, String.toList_append]
    rfl
  have bare (option : String) : option = arg → ∃ value, arg = option ++ value := by
    rintro rfl
    exact ⟨"", by simp⟩
  simp only [IsOwn, takesNext, isComplete, Bool.or_eq_true, List.any_eq_true, List.contains_iff_mem,
    isPrefixOf_toList_iff, holds]
  constructor
  · rintro (flag | extra | ⟨option, mem, rfl | ⟨value, same⟩⟩)
    · exact .inr (.inl (.inl flag))
    · exact .inr (.inl (.inr extra))
    · exact .inl (.inr mem)
    · exact .inr (.inr ⟨option, mem, value, same⟩)
  · rintro ((extra | valued) | (flag | extra) | ⟨option, mem, held⟩)
    · exact .inr (.inl ⟨arg, extra, bare arg rfl⟩)
    · exact .inr (.inr ⟨arg, valued, .inl rfl⟩)
    · exact .inl flag
    · exact .inr (.inl extra)
    · exact .inr (.inr ⟨option, mem, .inr held⟩)

instance : DecidablePred IsOwn := fun _ => decidable_of_iff _ isOwn_iff.symm

/-! ## Argument by argument -/

/-- Behind these arguments this one ends the options: it is not a value, and it is the separator or no option. -/
def EndsOptions (before : List String) (arg : String) : Prop :=
  awaitsValue before = false ∧ (arg = separator ∨ ¬ IsOwn arg)

instance (before : List String) (arg : String) : Decidable (EndsOptions before arg) :=
  inferInstanceAs (Decidable (_ ∧ _))

/-- Behind the arguments `before`, the next ones are divided into options and what is left for make. -/
inductive Divides : List String → List String → List String → List String → Prop where
  | none {before : List String} : Divides before [] [] []
  | separated {before rest : List String} : EndsOptions before separator → Divides before (separator :: rest) [] rest
  | foreign {before rest : List String} {arg : String} : EndsOptions before arg → arg ≠ separator →
      Divides before (arg :: rest) [] (arg :: rest)
  | own {before rest own make : List String} {arg : String} : ¬ EndsOptions before arg →
      Divides (before ++ [arg]) rest own make → Divides before (arg :: rest) (arg :: own) make

namespace Divides

variable {before args own make own' make' : List String}

/-- At most one place divides the arguments. -/
theorem unique (divided : Divides before args own make) (divided' : Divides before args own' make') :
    own = own' ∧ make = make' := by
  induction divided generalizing own' with
  | none =>
    cases divided'
    exact ⟨rfl, rfl⟩
  | separated ends =>
    cases divided' with
    | separated => exact ⟨rfl, rfl⟩
    | foreign _ other => exact absurd rfl other
    | own goesOn => exact absurd ends goesOn
  | foreign ends other =>
    cases divided' with
    | separated => exact absurd rfl other
    | foreign => exact ⟨rfl, rfl⟩
    | own goesOn => exact absurd ends goesOn
  | own goesOn _ ih =>
    cases divided' with
    | separated ends => exact absurd ends goesOn
    | foreign ends => exact absurd ends goesOn
    | own _ rest =>
      obtain ⟨rfl, rfl⟩ := ih rest
      exact ⟨rfl, rfl⟩

/-- None of the options ends them. -/
theorem goesOn (divided : Divides before args own make) {front back : List String} {arg : String}
    (split : own = front ++ arg :: back) : ¬ EndsOptions (before ++ front) arg := by
  induction divided generalizing front with
  | none => simp at split
  | separated => simp at split
  | foreign => simp at split
  | @own before rest own make first goesOn _ ih =>
    cases front with
    | nil =>
      obtain ⟨rfl, rfl⟩ := List.cons.inj split
      rwa [List.append_nil]
    | cons head front =>
      obtain ⟨rfl, behind⟩ := List.cons.inj split
      rw [List.append_cons]
      exact ih behind

/-- Behind the options nothing stands, or an argument that ends them. -/
theorem cut (divided : Divides before args own make) :
    args = own ∧ make = [] ∨ ∃ arg rest, args = own ++ arg :: rest ∧ EndsOptions (before ++ own) arg ∧
      (arg = separator ∧ make = rest ∨ arg ≠ separator ∧ make = arg :: rest) := by
  induction divided with
  | none => exact .inl ⟨rfl, rfl⟩
  | separated ends => exact .inr ⟨_, _, rfl, by rwa [List.append_nil], .inl ⟨rfl, rfl⟩⟩
  | foreign ends other => exact .inr ⟨_, _, rfl, by rwa [List.append_nil], .inr ⟨other, rfl⟩⟩
  | own _ _ ih =>
    rcases ih with ⟨rfl, rfl⟩ | ⟨arg, rest, rfl, ends, left⟩
    · exact .inl ⟨rfl, rfl⟩
    · rw [← List.append_cons] at ends
      exact .inr ⟨arg, rest, rfl, ends, left⟩

/-- What stands behind options is divided as it is behind them. -/
theorem append (divided : Divides before args own make) {rest : List String}
    (behind : Divides (before ++ own) rest own' make') : Divides before (own ++ rest) (own ++ own') make' := by
  induction divided with
  | none => rwa [List.append_nil] at behind
  | separated => rwa [List.append_nil] at behind
  | foreign => rwa [List.append_nil] at behind
  | own goesOn _ ih =>
    rw [List.append_cons] at behind
    exact .own goesOn (ih behind)

end Divides

/-! ## The command line -/

/-- The separator is not an option of the program's own. -/
theorem not_isOwn_separator : ¬ IsOwn separator := by decide +kernel

/-- The program's own options never end its options. -/
theorem not_endsOptions {before : List String} {arg : String} (own : IsOwn arg) : ¬ EndsOptions before arg := by
  rintro ⟨-, rfl | foreign⟩
  · exact not_isOwn_separator own
  · exact foreign own

/-- The value of an option ends nothing. -/
theorem not_endsOptions_of_awaitsValue {before : List String} (awaits : awaitsValue before = true) (arg : String) :
    ¬ EndsOptions before arg := by
  rintro ⟨idle, -⟩
  exact Bool.false_ne_true (idle.symm.trans awaits)

/-- The scan stops exactly where the arguments divide. -/
theorem divides_split {before : List String} (idle : awaitsValue before = false) (args : List String) :
    Divides before args (split args).1 (split args).2 := by
  induction args using split.induct generalizing before with
  | case1 => exact .none
  | case2 => exact .separated ⟨idle, .inl rfl⟩
  | case3 arg other option =>
    rw [split, if_neg other, if_pos option]
    rw [Bool.or_eq_true, ← isOwn_iff] at option
    exact .own (not_endsOptions option) .none
  | case4 arg other unknown =>
    rw [split, if_neg other, if_neg unknown]
    rw [Bool.or_eq_true, ← isOwn_iff] at unknown
    exact .foreign ⟨idle, .inr unknown⟩ other
  | case5 value rest => exact .separated ⟨idle, .inl rfl⟩
  | case6 arg value rest other takes own make divided ih =>
    rw [divided] at ih
    rw [split, if_neg other, if_pos takes, divided]
    -- The bare option awaits its value, so that this ends nothing, whatever it is.
    have awaits : awaitsValue (before ++ [arg]) = true := by rw [awaitsValue_concat, idle, takes]; rfl
    have settled : awaitsValue (before ++ [arg] ++ [value]) = false := by rw [awaitsValue_concat, awaits]; rfl
    refine .own (not_endsOptions (isOwn_iff.mpr (.inl takes))) ?_
    exact .own (not_endsOptions_of_awaitsValue awaits value) (ih settled)
  | case7 arg value rest other bare complete own make divided ih =>
    rw [divided] at ih
    rw [split, if_neg other, if_neg bare, if_pos complete, divided]
    have settled : awaitsValue (before ++ [arg]) = false := by
      rw [awaitsValue_concat, Bool.eq_false_iff.mpr bare, Bool.and_false]
    exact .own (not_endsOptions (isOwn_iff.mpr (.inr complete))) (ih settled)
  | case8 arg value rest other bare incomplete =>
    rw [split, if_neg other, if_neg bare, if_neg incomplete]
    exact .foreign ⟨idle, .inr fun own => (isOwn_iff.mp own).elim bare incomplete⟩ other

/-- The options of a command line are options in front of other arguments as well. -/
theorem split_own_append (args : List String) {rest own make : List String}
    (behind : Divides (split args).1 rest own make) :
    split ((split args).1 ++ rest) = ((split args).1 ++ own, make) := by
  have whole := (divides_split awaitsValue_nil args).append behind
  obtain ⟨own, make⟩ := (divides_split awaitsValue_nil _).unique whole
  exact Prod.ext own make

/-- **The command line is divided where its options end.** The options and what is left for make are the command line,
but for a separator between them. None of the options ends them, and the argument behind them, if there is one, does:
it is not a value, and it is the separator, which is dropped, or no option, which is left for make with everything
behind it. Conversely, where the last option does not lack its value, whatever follows a separator or an argument that
is no option is left for make. -/
theorem split_cuts {args own make : List String} (split_eq : split args = (own, make)) :
    (args = own ++ make ∨ args = own ++ [separator] ++ make) ∧
      (∀ before arg after, own = before ++ arg :: after → ¬ EndsOptions before arg) ∧
      (args = own ∧ make = [] ∨ ∃ arg rest, args = own ++ arg :: rest ∧ EndsOptions own arg ∧
        (arg = separator ∧ make = rest ∨ arg ≠ separator ∧ make = arg :: rest)) ∧
      (awaitsValue own = false → ∀ more,
        split (own ++ [separator] ++ more) = (own, more) ∧
          ∀ arg, ¬ IsOwn arg → arg ≠ separator → split (own ++ [arg] ++ more) = (own, [arg] ++ more)) := by
  have divided : Divides [] args own make := by simpa only [split_eq] using divides_split awaitsValue_nil args
  have again {rest make : List String} (behind : Divides own rest [] make) : split (own ++ rest) = (own, make) := by
    have whole : split ((split args).1 ++ rest) = ((split args).1 ++ [], make) :=
      split_own_append args (by rwa [split_eq])
    rwa [split_eq, List.append_nil] at whole
  have cut := divided.cut
  refine ⟨?_, fun before arg after => divided.goesOn, cut, fun idle more => ⟨?_, fun arg foreign other => ?_⟩⟩
  · rcases cut with ⟨whole, left⟩ | ⟨arg, rest, whole, -, ⟨rfl, left⟩ | ⟨-, left⟩⟩
    · exact .inl (by rw [left, List.append_nil, ← whole])
    · exact .inr (by rw [left, ← List.append_cons, ← whole])
    · exact .inl (by rw [left, ← whole])
  · rw [← List.append_cons]
    exact again (.separated ⟨idle, .inl rfl⟩)
  · rw [← List.append_cons]
    exact again (.foreign ⟨idle, .inr foreign⟩ other)

/-- The first `--` is the value of `-I`, the second one that of `--make`, and the third one ends the options. -/
def separatedArguments : List String :=
  ["-n", "-I", "--", "-W-D", "--make", "--", "--output=--", "--", "-n", "--", "all"]

theorem split_cuts_separated :
    let own := ["-n", "-I", "--", "-W-D", "--make", "--", "--output=--"]
    split separatedArguments = (own, ["-n", "--", "all"]) ∧ awaitsValue own = false ∧ ¬ IsOwn "-j4" ∧
      "-j4" ≠ separator ∧ ¬ EndsOptions ["-n", "-I"] "--" ∧
      split (own ++ [separator] ++ ["--help"]) = (own, ["--help"]) ∧
      split (own ++ ["-j4"] ++ ["--help"]) = (own, ["-j4", "--help"]) := by
  intro own
  have divided : split separatedArguments = (own, ["-n", "--", "all"]) := by decide +kernel
  have idle : awaitsValue own = false := by decide +kernel
  have foreign : ¬ IsOwn "-j4" := by decide +kernel
  have other : "-j4" ≠ separator := by decide
  obtain ⟨-, goesOn, -, conversely⟩ := split_cuts divided
  obtain ⟨separated, followed⟩ := conversely idle ["--help"]
  exact ⟨divided, idle, foreign, other, goesOn ["-n", "-I"] "--" _ rfl, separated, followed "-j4" foreign other⟩

end CompileDb.CommandLine
