import CompileDb.CommandLine.Options
import CompileDb.Proofs.Dividing
import CompileDb.Proofs.Results

/-!
# Reading options

Options are read in a second pass, by a table of their own. What one argument does to a reading depends on whether an
option awaits its value. If one does, the argument is the value, or the command line is not accepted
(`push_of_awaited?`). If none does, each option of the first pass is an option of the second one (`argument_of_isOwn`),
and `ReadAs.reaches` says what is awaited then and which values have been given.
-/

namespace CompileDb.CommandLine

/-! ## The options of both passes -/

/-- The option as it is typed. -/
def Valued.text : Valued → String
  | output => "--output"
  | config => "--config"
  | make => "--make"
  | searchDir => "-I"
  | define => "-D"
  | warning => "-W"

/-- No two options are written alike. -/
theorem Valued.text_injective {a b : Valued} (same : a.text = b.text) : a = b := by
  cases a <;> cases b <;> first | rfl | simp [text] at same

variable {option letter : Valued} {flag : Flag} {value arg : String}

theorem mem_extraOptions_iff :
    arg ∈ extraOptions ↔ ∃ option : Valued, option.takesAnything = true ∧ arg = option.text := by
  constructor
  · intro mem
    simp only [extraOptions, List.mem_cons, List.not_mem_nil, or_false] at mem
    rcases mem with rfl | rfl | rfl
    · exact ⟨.searchDir, rfl, rfl⟩
    · exact ⟨.define, rfl, rfl⟩
    · exact ⟨.warning, rfl, rfl⟩
  · rintro ⟨option, adds, rfl⟩
    cases option <;> simp_all [Valued.takesAnything, Valued.text, extraOptions]

theorem mem_valueOptions_iff :
    arg ∈ valueOptions ↔ ∃ option : Valued, option.takesAnything = false ∧ arg = option.text := by
  constructor
  · intro mem
    simp only [valueOptions, List.mem_cons, List.not_mem_nil, or_false] at mem
    rcases mem with rfl | rfl | rfl
    · exact ⟨.output, rfl, rfl⟩
    · exact ⟨.config, rfl, rfl⟩
    · exact ⟨.make, rfl, rfl⟩
  · rintro ⟨option, adds, rfl⟩
    cases option <;> simp_all [Valued.takesAnything, Valued.text, valueOptions]

/-- The options whose value may be the next argument are the same in both passes. -/
theorem takesNext_iff : takesNext arg = true ↔ ∃ option : Valued, arg = option.text := by
  rw [takesNext, Bool.or_eq_true, List.contains_iff_mem, List.contains_iff_mem, mem_extraOptions_iff,
    mem_valueOptions_iff]
  constructor
  · rintro (⟨option, -, same⟩ | ⟨option, -, same⟩)
    · exact ⟨option, same⟩
    · exact ⟨option, same⟩
  · rintro ⟨option, same⟩
    cases adds : option.takesAnything with
    | true => exact .inl ⟨option, adds, same⟩
    | false => exact .inr ⟨option, adds, same⟩

/-- An option with its value attached does not take the next argument. -/
theorem takesNext_attached (adds : option.takesAnything = true) (filled : value ≠ "") :
    takesNext (option.text ++ value) = false := by
  rw [Bool.eq_false_iff, Ne, takesNext_iff]
  rintro ⟨other, same⟩
  have text := congrArg String.toList same
  cases option with
  | searchDir => cases other <;> simp [Valued.text, filled] at text
  | define => cases other <;> simp [Valued.text, filled] at text
  | warning => cases other <;> simp [Valued.text, filled] at text
  | _ => cases adds

/-- An option with its value behind an equals sign does not take the next argument. -/
theorem takesNext_joined (option : Valued) (value : String) : takesNext (option.text ++ "=" ++ value) = false := by
  rw [Bool.eq_false_iff, Ne, takesNext_iff]
  rintro ⟨other, same⟩
  have text := congrArg String.toList same
  cases option <;> cases other <;> simp [Valued.text] at text

theorem takesNext_flag (mem : arg ∈ flagOptions) : takesNext arg = false := by
  simp only [flagOptions, List.mem_cons, List.not_mem_nil, or_false] at mem
  rcases mem with rfl | rfl | rfl | rfl | rfl | rfl | rfl | rfl <;> decide

/-- The value that stands in one argument with an option, right behind it. -/
def attached? (option arg : String) : Option String :=
  if option.toList.isPrefixOf arg.toList && arg != option then
    some (String.ofList (arg.toList.drop option.toList.length))
  else none

theorem attached?_text (letter option : Valued) : attached? letter.text option.text = none := by
  cases letter <;> cases option <;> decide

/-- An attached value belongs to the option it is attached to and to no other. -/
theorem attached?_attached (adds : letter.takesAnything = true) (adds' : option.takesAnything = true)
    (filled : value ≠ "") :
    attached? letter.text (option.text ++ value) = if option = letter then some value else none := by
  cases letter <;> cases option <;> simp_all [attached?, Valued.takesAnything, Valued.text]

theorem attached?_joined (adds : letter.takesAnything = true) (valued : option.takesAnything = false) (value : String) :
    attached? letter.text (option.text ++ "=" ++ value) = none := by
  cases letter <;> cases option <;> simp_all [attached?, Valued.takesAnything, Valued.text]

theorem attached?_flag (mem : arg ∈ flagOptions) (letter : Valued) : attached? letter.text arg = none := by
  simp only [flagOptions, List.mem_cons, List.not_mem_nil, or_false] at mem
  rcases mem with rfl | rfl | rfl | rfl | rfl | rfl | rfl | rfl <;> cases letter <;> decide

/-- The value that is read where this one stands right behind an option. One equals sign may stand between the two. -/
def withoutEquals (value : String) : String :=
  if value.toList.head? = some '=' then String.ofList value.toList.tail else value

/-! ## Values that have been read -/

/-- The values of the options that add arguments. -/
def Options.values (o : Options) : Valued → List String
  | .searchDir => o.includes
  | .define => o.defines
  | .warning => o.warnings
  | _ => []

/-- Setting an option appends to its own values and leaves the others alone. -/
theorem Options.values_of_set {o after : Options} (set : o.set option value = .ok after)
    (adds : letter.takesAnything = true) :
    after.values letter = o.values letter ++ if option = letter then [value] else [] := by
  cases option with
  | searchDir =>
    cases set
    cases letter <;> simp [values]
  | define =>
    cases set
    cases letter <;> simp [values]
  | warning =>
    cases set
    cases letter <;> simp [values]
  -- The other options are not among those whose values count.
  | _ =>
    have same : after.values letter = o.values letter := by
      simp only [Options.set] at set
      repeat' split at set
      all_goals cases set
      all_goals cases letter <;> rfl
    rw [same, if_neg (by rintro rfl; cases adds), List.append_nil]

theorem Options.values_of_raise {o after : Options} (raised : o.raise flag = .ok after) (letter : Valued) :
    after.values letter = o.values letter := by
  have once {old : Bool} {new : Options} (same : new.values letter = o.values letter)
      (ok : (if old then .error .conflict else .ok new : Except Refusal Options) = .ok after) :
      after.values letter = o.values letter := by
    cases old with
    | true => cases ok
    | false =>
      cases ok
      exact same
  cases flag with
  | help => cases raised
  | version => cases raised
  | verbose =>
    cases raised
    cases letter <;> rfl
  | _ => exact once (by cases letter <;> rfl) raised

namespace Reading

/-- The option whose value is still to come. -/
def awaited? (r : Reading) : Option Valued :=
  match r.pending with
  | some (option, none) => some option
  | _ => none

/-- The values met so far. -/
def values (r : Reading) (letter : Valued) : List String :=
  r.options.values letter ++
    match r.pending with
    | some (option, some value) => if option = letter then [value] else []
    | _ => []

variable {r middle next : Reading} {awaited : Option Valued} {given : Valued → List String} {rest : List String}
  {o : Options}

theorem awaited?_eq_some_iff : r.awaited? = some option ↔ r.pending = some (option, none) := by
  unfold awaited?
  split
  case h_1 other pending => simp [pending]
  case h_2 other => exact iff_of_false (by simp) (other option)

/-- A reading goes on: an option awaits its value then, or none does, and these values have been given. -/
structure Reaches (r next : Reading) (awaited : Option Valued) (given : Valued → List String) : Prop where
  awaited : next.awaited? = awaited
  trailing : next.trailing = r.trailing
  values : ∀ letter : Valued, letter.takesAnything = true → next.values letter = r.values letter ++ given letter

/-- Settling a pending option loses none of the values read. -/
theorem values_of_settle (settled : r.settle = .ok next) :
    next.pending = none ∧ next.trailing = r.trailing ∧
      ∀ letter : Valued, letter.takesAnything = true → next.options.values letter = r.values letter := by
  unfold settle at settled
  split at settled
  case h_1 pending =>
    cases settled
    exact ⟨pending, rfl, fun letter _ => by simp [values, pending]⟩
  case h_2 => cases settled
  case h_3 option value pending =>
    obtain ⟨options, set, rfl⟩ := map_eq_ok_iff.mp settled
    refine ⟨rfl, rfl, fun letter adds => ?_⟩
    simp only [values, pending]
    exact Options.values_of_set set adds

/-- What is pending is settled before anything else is read. -/
theorem Reaches.of_settle (settled : r.settle = .ok middle) (trailing : next.trailing = middle.trailing)
    (pending : next.pending = awaited.map fun option => (option, none))
    (values : ∀ letter : Valued, letter.takesAnything = true →
      next.options.values letter = middle.options.values letter ++ given letter) :
    Reaches r next awaited given := by
  obtain ⟨-, same, before⟩ := values_of_settle settled
  refine ⟨?_, trailing.trans same, fun letter adds => ?_⟩
  · rw [awaited?, pending]
    cases awaited <;> rfl
  · have unmet : next.values letter = next.options.values letter := by
      rw [Reading.values, pending]
      cases awaited <;> simp
    rw [unmet, values letter adds, before letter adds]

theorem reaches_of_raise (raised : r.raise flag = .ok next) : Reaches r next none fun _ => [] := by
  obtain ⟨middle, settled, rest⟩ := bind_eq_ok_iff.mp raised
  obtain ⟨options, set, same⟩ := bind_eq_ok_iff.mp rest
  cases same
  refine .of_settle settled rfl (values_of_settle settled).1 fun letter _ => ?_
  rw [List.append_nil]
  exact Options.values_of_raise set letter

theorem reaches_of_await (awaited : r.await option = .ok next) : Reaches r next (some option) fun _ => [] := by
  obtain ⟨middle, settled, same⟩ := bind_eq_ok_iff.mp awaited
  cases same
  exact .of_settle settled rfl rfl fun letter _ => (List.append_nil _).symm

/-- Giving an option a value adds that value to its own. -/
theorem reaches_of_give (given : r.give option value = .ok next) :
    Reaches r next none fun letter => if option = letter then [value] else [] := by
  obtain ⟨middle, settled, rest⟩ := bind_eq_ok_iff.mp given
  obtain ⟨options, set, same⟩ := bind_eq_ok_iff.mp rest
  cases same
  exact .of_settle settled rfl (values_of_settle settled).1 fun letter adds => Options.values_of_set set adds

/-! ## To the end -/

/-- The options when these arguments have been read as well. -/
def finishAfter (r : Reading) (rest : List String) : Except Refusal Options :=
  rest.foldlM push r >>= finish

theorem finishAfter_cons : r.finishAfter (arg :: rest) = r.push arg >>= (·.finishAfter rest) := by
  rw [finishAfter, List.foldlM_cons, bind_assoc]
  rfl

theorem finishAfter_cons_eq_ok_iff :
    r.finishAfter (arg :: rest) = .ok o ↔ ∃ next, r.push arg = .ok next ∧ next.finishAfter rest = .ok o := by
  rw [finishAfter_cons]
  exact bind_eq_ok_iff

/-- Arguments read in two stretches are read in one. -/
theorem finishAfter_append {front : List String} (read : front.foldlM push r = .ok next) :
    r.finishAfter (front ++ rest) = next.finishAfter rest := by
  rw [finishAfter, List.foldlM_append, read]
  rfl

theorem values_of_finish (finished : r.finish = .ok o) (adds : letter.takesAnything = true) :
    o.values letter = r.values letter := by
  obtain ⟨middle, settled, rest⟩ := bind_eq_ok_iff.mp finished
  obtain ⟨-, -, values⟩ := values_of_settle settled
  rw [← values letter adds]
  split at rest
  · cases rest
  · cases rest
    rfl

/-! ## Where a value is to come -/

section Awaiting

variable (awaits : r.awaited? = some option)
include awaits

theorem settle_of_awaited? : r.settle = .error .invalidValue := by
  rw [settle, awaited?_eq_some_iff.mp awaits]

/-- While an option awaits its value nothing else can be given one. -/
theorem give_of_awaited? (other : Valued) (value : String) : r.give other value = .error .invalidValue := by
  rw [give, settle_of_awaited? awaits]
  rfl

theorem await_of_awaited? (other : Valued) : r.await other = .error .invalidValue := by
  rw [await, settle_of_awaited? awaits]
  rfl

theorem raise_of_awaited? (flag : Flag) : r.raise flag = .error .invalidValue := by
  rw [raise, settle_of_awaited? awaits]
  rfl

theorem letters_of_awaited? (c : Char) (rest : List Char) : r.letters (c :: rest) ≠ .ok next := by
  rw [letters]
  split
  case h_1 => simp
  case h_2 flag => simp [raise_of_awaited? awaits]
  case h_3 other =>
    split
    case h_1 => simp [await_of_awaited? awaits]
    case h_2 => simp [give_of_awaited? awaits]
    case h_3 => simp [give_of_awaited? awaits]

theorem long_of_awaited? (body : List Char) : r.long body ≠ .ok next := by
  unfold long
  dsimp only
  split
  case h_1 => simp
  case h_2 => simp [give_of_awaited? awaits]
  case h_3 => simp [await_of_awaited? awaits]
  case h_4 => simp [raise_of_awaited? awaits]
  case h_5 => simp

/-- Behind the separator no value comes any more. -/
theorem finishAfter_of_trailing (trailing : r.trailing = true) (rest : List String) (o : Options) :
    r.finishAfter rest ≠ .ok o := by
  intro finished
  cases rest with
  | nil =>
    have unsettled : r.finish = .error .invalidValue := by
      rw [finish, settle_of_awaited? awaits]
      rfl
    cases unsettled.symm.trans finished
  | cons arg rest =>
    obtain ⟨next, pushed, -⟩ := finishAfter_cons_eq_ok_iff.mp finished
    simp [push, trailing] at pushed

/-- Where the command line is accepted, the argument behind an option that awaits its value is that value. -/
theorem push_of_awaited? (untrailing : r.trailing = false) (finished : r.finishAfter (arg :: rest) = .ok o) :
    r.push arg = .ok { r with pending := some (option, some arg) } := by
  have pending := awaited?_eq_some_iff.mp awaits
  obtain ⟨next, pushed, later⟩ := finishAfter_cons_eq_ok_iff.mp finished
  have read : r.push arg = if option.takesAnything then .ok { r with pending := some (option, some arg) }
      else r.argument arg := by
    simp [push, untrailing, pending]
  rw [read] at pushed ⊢
  split
  case isTrue => rfl
  case isFalse anything =>
    -- What looks like an option would be read as one, and find the value missing.
    rw [if_neg anything, argument] at pushed
    rw [argument]
    split at pushed
    case h_1 =>
      cases pushed
      exact absurd later (finishAfter_of_trailing (r := { r with trailing := true }) awaits rfl rest o)
    case h_2 => exact absurd pushed (long_of_awaited? awaits _)
    case h_3 => exact absurd pushed (letters_of_awaited? awaits _ _)
    case h_4 => rw [pending]

end Awaiting

/-! ## Where no value is to come -/

/-- When nothing is awaited an argument is read for itself. -/
theorem push_of_unawaited (unawaited : r.awaited? = none) (untrailing : r.trailing = false) :
    r.push arg = r.argument arg := by
  rw [push, untrailing, if_neg Bool.false_ne_true]
  split
  case h_1 option pending => cases (awaited?_eq_some_iff.mpr pending).symm.trans unawaited
  case h_2 => rfl

/-- What an option is read as where no value is to come. -/
inductive ReadAs : String → (Reading → Except Refusal Reading) → Prop where
  | bare (option : Valued) : ReadAs option.text (·.await option)
  | attached {option : Valued} {value : String} : option.takesAnything = true → value ≠ "" →
      ReadAs (option.text ++ value) (·.give option (withoutEquals value))
  | joined {option : Valued} {value : String} : option.takesAnything = false →
      ReadAs (option.text ++ "=" ++ value) (·.give option value)
  | flag {arg : String} (flag : Flag) : arg ∈ flagOptions → ReadAs arg (·.raise flag)

/-- An option by itself awaits its value. -/
theorem argument_text (option : Valued) (r : Reading) : r.argument option.text = r.await option := by
  cases option <;> rfl

/-- A value attached to a short option loses a leading equals sign. -/
theorem argument_attached (adds : option.takesAnything = true) (filled : value ≠ "") (r : Reading) :
    r.argument (option.text ++ value) = r.give option (withoutEquals value) := by
  obtain ⟨c, known, text, other⟩ : ∃ c, letterOption? c = some (.inl option) ∧ option.text.toList = ['-', c] ∧
      c ≠ '-' := by
    cases option with
    | searchDir => exact ⟨'I', rfl, rfl, by decide⟩
    | define => exact ⟨'D', rfl, rfl, by decide⟩
    | warning => exact ⟨'W', rfl, rfl, by decide⟩
    | _ => cases adds
  obtain ⟨first, rest, held⟩ :=
    List.exists_cons_of_ne_nil fun empty => filled (String.toList_eq_nil_iff.mp empty)
  have read : r.argument (option.text ++ value) = r.letters (c :: value.toList) := by
    rw [argument, String.toList_append, text]
    simp [other]
  rw [read, letters, known, held]
  by_cases equals : first = '='
  · subst equals
    simp [withoutEquals, held]
  · have whole : String.ofList (first :: rest) = value := by rw [← held, String.ofList_toList]
    simp [withoutEquals, held, equals, whole]

/-- A long option takes its value from behind the equals sign. -/
theorem argument_joined (valued : option.takesAnything = false) (value : String) (r : Reading) :
    r.argument (option.text ++ "=" ++ value) = r.give option value := by
  obtain ⟨name, known, text, free⟩ : ∃ name, longOption? (String.ofList name) = some (.inl option) ∧
      option.text.toList = '-' :: '-' :: name ∧ ∀ c ∈ name, (c != '=') = true := by
    cases option with
    | output => exact ⟨"output".toList, rfl, rfl, by simp⟩
    | config => exact ⟨"config".toList, rfl, rfl, by simp⟩
    | make => exact ⟨"make".toList, rfl, rfl, by simp⟩
    | _ => cases valued
  have read : r.argument (option.text ++ "=" ++ value) = r.long (name ++ '=' :: value.toList) := by
    rw [argument, String.toList_append, String.toList_append, text]
    simp
  rw [read, long, List.takeWhile_append_of_pos free, List.dropWhile_append_of_pos free]
  simp [known]

theorem letters_flag {c : Char} (known : letterOption? c = some (.inr flag)) (r : Reading) :
    r.letters [c] = r.raise flag := by
  rw [letters, known]
  dsimp only
  cases r.raise flag with
  | error e => rfl
  | ok next => rfl

/-- Whatever the first pass takes for an option, the second one does. -/
theorem argument_of_isOwn (own : IsOwn arg) : ∃ act, ReadAs arg act ∧ ∀ r : Reading, r.argument arg = act r := by
  rcases own with mem | ⟨extra, mem, value, rfl⟩ | ⟨valued, mem, rfl | ⟨value, rfl⟩⟩
  · have read (flag : Flag) (same : ∀ r : Reading, r.argument arg = r.raise flag) :
        ∃ act, ReadAs arg act ∧ ∀ r : Reading, r.argument arg = act r := ⟨_, .flag flag mem, same⟩
    have flags := mem
    simp only [flagOptions, List.mem_cons, List.not_mem_nil, or_false] at flags
    rcases flags with rfl | rfl | rfl | rfl | rfl | rfl | rfl | rfl
    · exact read .dryRun (letters_flag (c := 'n') rfl)
    · exact read .dryRun fun _ => rfl
    · exact read .build fun _ => rfl
    · exact read .verbose fun _ => rfl
    · exact read .quiet fun _ => rfl
    · exact read .help (letters_flag (c := 'h') rfl)
    · exact read .help fun _ => rfl
    · exact read .version fun _ => rfl
  · obtain ⟨option, adds, rfl⟩ := mem_extraOptions_iff.mp mem
    by_cases empty : value = ""
    · rw [empty, String.append_empty]
      exact ⟨_, .bare option, argument_text option⟩
    · exact ⟨_, .attached adds empty, argument_attached adds empty⟩
  · obtain ⟨option, valued, rfl⟩ := mem_valueOptions_iff.mp mem
    exact ⟨_, .bare option, argument_text option⟩
  · obtain ⟨option, valued, rfl⟩ := mem_valueOptions_iff.mp mem
    exact ⟨_, .joined valued, argument_joined valued value⟩

/-- Behind an option a value is to come if it is bare, and the value attached to it, if there is one, is given to it. -/
theorem ReadAs.reaches {act : Reading → Except Refusal Reading} (readAs : ReadAs arg act) (acted : act r = .ok next) :
    ∃ awaited, (awaited.map Valued.text = if takesNext arg then some arg else none) ∧
      Reaches r next awaited fun letter => ((attached? letter.text arg).map withoutEquals).toList := by
  have attached {awaited : Option Valued} {given : Valued → List String} (reaches : Reaches r next awaited given)
      (same : ∀ letter : Valued, letter.takesAnything = true →
        given letter = ((attached? letter.text arg).map withoutEquals).toList) :
      Reaches r next awaited fun letter => ((attached? letter.text arg).map withoutEquals).toList :=
    ⟨reaches.awaited, reaches.trailing, fun letter adds => by rw [reaches.values letter adds, same letter adds]⟩
  cases readAs with
  | bare option =>
    refine ⟨some option, ?_, attached (reaches_of_await acted) fun letter _ => ?_⟩
    · rw [if_pos (takesNext_iff.mpr ⟨option, rfl⟩)]
      rfl
    · rw [attached?_text]
      rfl
  | attached adds filled =>
    refine ⟨none, ?_, attached (reaches_of_give acted) fun letter adds' => ?_⟩
    · rw [takesNext_attached adds filled]
      rfl
    · rw [attached?_attached adds' adds filled]
      split <;> rfl
  | joined valued =>
    refine ⟨none, ?_, attached (reaches_of_give acted) fun letter adds => ?_⟩
    · rw [takesNext_joined]
      rfl
    · rw [attached?_joined adds valued, if_neg]
      · rfl
      · rintro rfl
        exact Bool.false_ne_true (valued.symm.trans adds)
  | flag flag mem =>
    refine ⟨none, ?_, attached (reaches_of_raise acted) fun letter _ => ?_⟩
    · rw [takesNext_flag mem]
      rfl
    · rw [attached?_flag mem]
      rfl

end Reading

end CompileDb.CommandLine
