import CompileDb.Proofs.ReadingOptions

/-!
# Values of options

The command line is read twice: it is split first, and its options are read by a table of their own then. The two
readings agree on what is a value (`Follows`), and one argument more keeps them agreeing (`Follows.push`), so that the
values that are read are those that the arguments give (`readTo_of_split`). What is read of a given value is the value
as it is typed, unless it stands right behind its option with an equals sign in front (`Giving.taken_eq_typed_iff`).
-/

namespace CompileDb.CommandLine

/-! ## Values as typed -/

/-- How a value is given to an option. -/
inductive Giving where
  /-- In one argument with the option, right behind it. -/
  | attached (value : String)
  /-- As the argument behind the option. -/
  | separate (value : String)
deriving DecidableEq, Repr

namespace Giving

/-- The value as the user has typed it. -/
def typed : Giving → String
  | attached value => value
  | separate value => value

/-- The value that is read. One equals sign may stand between an option and its value. -/
def taken : Giving → String
  | attached value => withoutEquals value
  | separate value => value

/-- A value is taken as typed unless it is attached and begins with an equals sign. -/
theorem taken_eq_typed_iff {g : Giving} :
    g.taken = g.typed ↔ ∀ value, g = attached value → value.toList.head? ≠ some '=' := by
  cases g with
  | separate value => simp [taken, typed]
  | attached value =>
    simp only [taken, withoutEquals, typed, attached.injEq, forall_eq']
    split
    case isFalse other => exact iff_of_true rfl other
    case isTrue equals =>
      refine iff_of_false (fun same => ?_) (fun other => other equals)
      have length := congrArg (·.toList.length) same
      cases text : value.toList with
      | nil => simp [text] at equals
      | cons c rest => simp [text] at length

end Giving

/-- The value that this argument gives to an option, behind these arguments. -/
def giving? (option : String) (before : List String) (arg : String) : Option Giving :=
  if awaitsValue before then
    if before.getLast? = some option then some (.separate arg) else none
  else (attached? option arg).map .attached

/-- The values that arguments give to an option, behind others. -/
def givings (option : String) (before : List String) : List String → List Giving
  | [] => []
  | arg :: rest => (giving? option before arg).toList ++ givings option (before ++ [arg]) rest

/-- Values given in two stretches are those of both, in order. -/
theorem givings_append (option : String) (before front back : List String) :
    givings option before (front ++ back) = givings option before front ++ givings option (before ++ front) back := by
  induction front generalizing before with
  | nil => simp [givings]
  | cons arg front ih => simp [givings, ih]

/-! ## Two readings of the same arguments -/

/-- Behind these arguments a value is to come in a reading exactly if it is when the command line is split. -/
inductive Follows (before : List String) (r : Reading) : Prop where
  | idle : r.trailing = false → awaitsValue before = false → r.awaited? = none → Follows before r
  | awaiting (option : Valued) : r.trailing = false → awaitsValue before = true → r.awaited? = some option →
      before.getLast? = some option.text → Follows before r

/-- The arguments have been read, what they give to the options is met, and the two readings still agree. -/
structure ReadTo (before front : List String) (r next : Reading) : Prop where
  follows : Follows (before ++ front) next
  values : ∀ letter : Valued, letter.takesAnything = true →
    next.values letter = r.values letter ++ (givings letter.text before front).map Giving.taken

variable {option letter : Valued} {value arg : String} {before rest : List String} {r next : Reading} {o : Options}

/-- A value that is to come is the next argument, whatever that is. -/
theorem readTo_of_awaited? (untrailing : r.trailing = false) (awaits : awaitsValue before = true)
    (awaited : r.awaited? = some option) (last : before.getLast? = some option.text) :
    ReadTo before [arg] r { r with pending := some (option, some arg) } where
  follows := .idle untrailing (by rw [awaitsValue_concat, awaits]; rfl) rfl
  values letter adds := by
    have pending := Reading.awaited?_eq_some_iff.mp awaited
    simp only [givings, giving?, awaits, last, Reading.values, pending]
    by_cases same : option = letter
    · simp [same, Giving.taken]
    · have other : option.text ≠ letter.text := fun text => same (Valued.text_injective text)
      simp [same, other]

/-- What an option gives is met, and it awaits a value exactly if it does when the command line is split. -/
theorem readTo_of_readAs {act : Reading → Except Refusal Reading} (readAs : Reading.ReadAs arg act)
    (untrailing : r.trailing = false) (idle : awaitsValue before = false) (acted : act r = .ok next) :
    ReadTo before [arg] r next := by
  obtain ⟨awaited, bare, reaches⟩ := readAs.reaches acted
  have trailing : next.trailing = false := reaches.trailing.trans untrailing
  have awaits : awaitsValue (before ++ [arg]) = takesNext arg := by rw [awaitsValue_concat, idle]; rfl
  refine ⟨?_, fun letter adds => ?_⟩
  · cases takes : takesNext arg with
    | false =>
      rw [takes, if_neg Bool.false_ne_true, Option.map_eq_none_iff] at bare
      exact .idle trailing (awaits.trans takes) (reaches.awaited.trans bare)
    | true =>
      rw [takes, if_pos rfl, Option.map_eq_some_iff] at bare
      obtain ⟨option, rfl, rfl⟩ := bare
      exact .awaiting option trailing (awaits.trans takes) reaches.awaited (by simp)
  · rw [reaches.values letter adds]
    cases held : attached? letter.text arg <;> simp [givings, giving?, idle, held, Giving.taken]

/-- One more argument, if it does not end the options. -/
theorem Follows.push (h : Follows before r) (goesOn : ¬ EndsOptions before arg)
    (finished : r.finishAfter (arg :: rest) = .ok o) :
    ∃ next, r.push arg = .ok next ∧ next.finishAfter rest = .ok o ∧ ReadTo before [arg] r next := by
  obtain ⟨next, pushed, later⟩ := Reading.finishAfter_cons_eq_ok_iff.mp finished
  refine ⟨next, pushed, later, ?_⟩
  cases h with
  | awaiting option untrailing awaits awaited last =>
    rw [Reading.push_of_awaited? awaited untrailing finished] at pushed
    cases pushed
    exact readTo_of_awaited? untrailing awaits awaited last
  | idle untrailing idle unawaited =>
    have own : IsOwn arg := Classical.byContradiction fun foreign => goesOn ⟨idle, .inr foreign⟩
    obtain ⟨act, readAs, same⟩ := Reading.argument_of_isOwn own
    have read : r.push arg = r.argument arg := Reading.push_of_unawaited unawaited untrailing
    exact readTo_of_readAs readAs untrailing idle (same r ▸ read ▸ pushed)

/-- Two stretches of arguments read one after the other are read as one. -/
theorem ReadTo.append {front back : List String} {last : Reading} (first : ReadTo before front r next)
    (second : ReadTo (before ++ front) back next last) : ReadTo before (front ++ back) r last where
  follows := by
    rw [← List.append_assoc]
    exact second.follows
  values letter adds := by
    rw [second.values letter adds, first.values letter adds, givings_append, List.map_append, List.append_assoc]

/-- Arguments that do not end the options are read one by one, and the two readings agree behind each of them. -/
theorem Follows.foldlM (h : Follows before r) {front : List String}
    (goesOn : ∀ a arg b, front = a ++ arg :: b → ¬ EndsOptions (before ++ a) arg)
    (finished : r.finishAfter (front ++ rest) = .ok o) :
    ∃ next, front.foldlM Reading.push r = .ok next ∧ next.finishAfter rest = .ok o ∧ ReadTo before front r next := by
  induction front generalizing before r with
  | nil => exact ⟨r, rfl, finished, by rwa [List.append_nil], fun _ _ => by simp [givings]⟩
  | cons arg front ih =>
    have notHere : ¬ EndsOptions before arg := by simpa using goesOn [] arg front rfl
    obtain ⟨middle, pushed, later, first⟩ := h.push notHere finished
    have notLater : ∀ a other b, front = a ++ other :: b → ¬ EndsOptions (before ++ [arg] ++ a) other := by
      rintro a other b rfl
      rw [← List.append_cons]
      exact goesOn (arg :: a) other b rfl
    obtain ⟨next, read, finished, second⟩ := ih first.follows notLater later
    refine ⟨next, ?_, finished, first.append second⟩
    rw [List.foldlM_cons, pushed]
    exact read

/-- A command line is read from the start through any of its options. -/
theorem readTo_of_split {args front back : List String} (own : (split args).1 = front ++ back)
    (finished : Reading.start.finishAfter (front ++ rest) = .ok o) :
    ∃ r, front.foldlM Reading.push .start = .ok r ∧ r.finishAfter rest = .ok o ∧ ReadTo [] front .start r := by
  have goesOn : ∀ a arg b, front = a ++ arg :: b → ¬ EndsOptions a arg := by
    rintro a arg b rfl
    exact (divides_split awaitsValue_nil args).goesOn (own.trans (List.append_assoc a (arg :: b) back))
  exact Follows.foldlM (.idle rfl rfl rfl) goesOn finished

/-- The next argument is read as a value exactly where one is to come, and then as the value of the same option. -/
theorem Follows.awaitsValue_iff (h : Follows before r) (finished : r.finishAfter (arg :: rest) = .ok o)
    (pushed : r.push arg = .ok next) :
    awaitsValue before = true ↔ ∃ option, before.getLast? = some (Valued.text option) ∧
      r.pending = some (option, none) ∧ next.pending = some (option, some arg) := by
  cases h with
  | awaiting option untrailing awaits awaited last =>
    refine iff_of_true awaits ⟨option, last, Reading.awaited?_eq_some_iff.mp awaited, ?_⟩
    rw [Reading.push_of_awaited? awaited untrailing finished] at pushed
    cases pushed
    rfl
  | idle _ idle unawaited =>
    refine iff_of_false (Bool.eq_false_iff.mp idle) ?_
    rintro ⟨option, -, pending, -⟩
    cases (Reading.awaited?_eq_some_iff.mpr pending).symm.trans unawaited

/-- A command line is read as its own part is, and the rest is for make. -/
theorem Options.parse_eq_ok_iff {args : List String} :
    Options.parse args = .ok o ↔ ∃ read, Reading.start.finishAfter (split args).1 = .ok read ∧
      o = { read with makeArguments := (split args).2 } := by
  constructor
  · intro parsed
    obtain ⟨r, read, finished⟩ := bind_eq_ok_iff.mp parsed
    obtain ⟨options, finished, same⟩ := bind_eq_ok_iff.mp finished
    exact ⟨options, bind_eq_ok_iff.mpr ⟨r, read, finished⟩, (Except.ok.inj same).symm⟩
  · rintro ⟨options, finished, rfl⟩
    obtain ⟨r, read, finished⟩ := bind_eq_ok_iff.mp finished
    exact bind_eq_ok_iff.mpr ⟨r, read, bind_eq_ok_iff.mpr ⟨options, finished, rfl⟩⟩

/-! ## The two forms of a value -/

/-- What is pending is settled before the next option is read, so that it does not matter whether that has been done. -/
theorem finishAfter_of_settle_eq {r r' : Reading} (settled : r.settle = r'.settle) (unawaited : r.awaited? = none)
    (unawaited' : r'.awaited? = none) (untrailing : r.trailing = false) (untrailing' : r'.trailing = false)
    {rest : List String} (own : ∀ arg ∈ rest.head?, IsOwn arg) : r.finishAfter rest = r'.finishAfter rest := by
  cases rest with
  | nil =>
    have finished : r.finish = r'.finish := by rw [Reading.finish, settled, Reading.finish]
    exact finished
  | cons arg rest =>
    obtain ⟨act, readAs, same⟩ := Reading.argument_of_isOwn (own arg rfl)
    have acted : act r = act r' := by
      cases readAs with
      | bare option => simp only [Reading.await, settled]
      | attached => simp only [Reading.give, settled]
      | joined => simp only [Reading.give, settled]
      | flag flag => simp only [Reading.raise, settled]
    have pushed : r.push arg = r'.push arg := by
      rw [Reading.push_of_unawaited unawaited untrailing, Reading.push_of_unawaited unawaited' untrailing', same, same,
        acted]
    rw [Reading.finishAfter_cons, pushed, ← Reading.finishAfter_cons]

/-- A plain value is given by the two forms of an option alike. -/
theorem finishAfter_attached (unawaited : r.awaited? = none) (untrailing : r.trailing = false)
    (adds : option.takesAnything = true) (filled : value ≠ "") (plain : value.toList.head? ≠ some '=')
    (own : ∀ arg ∈ rest.head?, IsOwn arg) :
    r.finishAfter ((option.text ++ value) :: rest) = r.finishAfter (option.text :: value :: rest) := by
  have taken : withoutEquals value = value := if_neg plain
  have attached : r.push (option.text ++ value) = r.give option value := by
    rw [Reading.push_of_unawaited unawaited untrailing, Reading.argument_attached adds filled, taken]
  have bare : r.push option.text = r.await option := by
    rw [Reading.push_of_unawaited unawaited untrailing, Reading.argument_text]
  rw [Reading.finishAfter_cons, Reading.finishAfter_cons, attached, bare]
  cases settled : r.settle with
  | error e =>
    rw [Reading.give, Reading.await, settled]
    rfl
  | ok s =>
    obtain ⟨unpending, trailing, -⟩ := Reading.values_of_settle settled
    obtain ⟨options, set⟩ : ∃ options, s.options.set option value = .ok options := by
      cases option with
      | searchDir => exact ⟨_, rfl⟩
      | define => exact ⟨_, rfl⟩
      | warning => exact ⟨_, rfl⟩
      | _ => cases adds
    have given : r.give option value = .ok { s with options } :=
      bind_eq_ok_iff.mpr ⟨s, settled, bind_eq_ok_iff.mpr ⟨options, set, rfl⟩⟩
    have awaited : r.await option = .ok { s with pending := some (option, none) } :=
      bind_eq_ok_iff.mpr ⟨s, settled, rfl⟩
    have met : Reading.push { s with pending := some (option, none) } value =
        .ok { s with pending := some (option, some value) } := by
      simp [Reading.push, trailing, untrailing, adds]
    -- What is set at once here is pending there, and set before the next option is read.
    have alike : Reading.settle { s with options } =
        Reading.settle { s with pending := some (option, some value) } := by
      simp only [Reading.settle, unpending, set]
      rfl
    have goesOn : Reading.finishAfter { s with options } rest =
        Reading.finishAfter { s with pending := some (option, some value) } rest := by
      refine finishAfter_of_settle_eq alike ?_ rfl (trailing.trans untrailing) (trailing.trans untrailing) own
      simp [Reading.awaited?, unpending]
    rw [given, awaited]
    calc Reading.finishAfter { s with options } rest
      _ = Reading.finishAfter { s with pending := some (option, some value) } rest := goesOn
      _ = Reading.finishAfter { s with pending := some (option, none) } (value :: rest) := by
        rw [Reading.finishAfter_cons, met]
        rfl

/-- The options begin with an option. -/
theorem isOwn_of_head (args : List String) : ∀ arg ∈ (split args).1.head?, IsOwn arg := by
  intro arg first
  obtain ⟨rest, own⟩ := List.head?_eq_some_iff.mp first
  have atOnce : (split args).1 = [] ++ arg :: rest := own
  refine Classical.byContradiction fun foreign => ?_
  exact (divides_split awaitsValue_nil args).goesOn atOnce ⟨rfl, .inr foreign⟩

/-- Behind options that await no value, what is read alike leads to the same options. -/
theorem finishAfter_of_alike {front back back' : List String} (options : (split front).1 = front)
    (idle : awaitsValue front = false)
    (alike : ∀ r : Reading, r.awaited? = none → r.trailing = false → r.finishAfter back = r.finishAfter back')
    (finished : Reading.start.finishAfter (front ++ back) = .ok o) :
    Reading.start.finishAfter (front ++ back') = .ok o := by
  obtain ⟨r, reads, later, readTo⟩ := readTo_of_split (options.trans (List.append_nil front).symm) finished
  cases readTo.follows with
  | awaiting _ _ awaits => exact absurd (idle.symm.trans awaits) Bool.false_ne_true
  | idle untrailing _ unawaited =>
    rw [Reading.finishAfter_append reads, ← alike r unawaited untrailing]
    exact later

/-- Whether a plain value is attached to its option makes no difference to the options of the command line. -/
theorem parse_attached_iff {front back : List String} (adds : option.takesAnything = true) (filled : value ≠ "")
    (plain : value.toList.head? ≠ some '=') (options : (split front).1 = front) (idle : awaitsValue front = false) :
    Options.parse (front ++ (option.text ++ value) :: back) = .ok o ↔
      Options.parse (front ++ option.text :: value :: back) = .ok o := by
  have divides {args own make : List String} (behind : Divides front args own make) :
      split (front ++ args) = (front ++ own, make) := by
    have divided := split_own_append front (options.symm ▸ behind)
    rwa [options] at divided
  have own : IsOwn (option.text ++ value) :=
    .inr (.inl ⟨option.text, mem_extraOptions_iff.mpr ⟨option, adds, rfl⟩, value, rfl⟩)
  have takes : takesNext option.text = true := takesNext_iff.mpr ⟨option, rfl⟩
  have attached : split (front ++ (option.text ++ value) :: back) =
      (front ++ (option.text ++ value) :: (split back).1, (split back).2) := by
    refine divides (.own (not_endsOptions own) (divides_split ?_ back))
    rw [awaitsValue_concat, takesNext_attached adds filled, Bool.and_false]
  have separate : split (front ++ option.text :: value :: back) =
      (front ++ option.text :: value :: (split back).1, (split back).2) := by
    have awaits : awaitsValue (front ++ [option.text]) = true := by rw [awaitsValue_concat, idle, takes]; rfl
    refine divides (.own (not_endsOptions (isOwn_iff.mpr (.inl takes))) ?_)
    refine .own (not_endsOptions_of_awaitsValue awaits value) (divides_split ?_ back)
    rw [awaitsValue_concat, awaits]
    rfl
  have alike (r : Reading) (unawaited : r.awaited? = none) (untrailing : r.trailing = false) :=
    finishAfter_attached unawaited untrailing adds filled plain (isOwn_of_head back)
  rw [Options.parse_eq_ok_iff, Options.parse_eq_ok_iff, attached, separate]
  constructor
  · rintro ⟨read, finished, same⟩
    exact ⟨read, finishAfter_of_alike options idle alike finished, same⟩
  · rintro ⟨read, finished, same⟩
    exact ⟨read, finishAfter_of_alike options idle (fun r first second => (alike r first second).symm) finished, same⟩

/-- Lists put together of pieces that are as long as those of another are the same only piece by piece. -/
theorem flatMap_eq_flatMap_iff {α β : Type} {f g : α → List β} {l : List α}
    (long : ∀ a ∈ l, (f a).length = (g a).length) : l.flatMap f = l.flatMap g ↔ ∀ a ∈ l, f a = g a := by
  induction l with
  | nil => simp
  | cons a l ih =>
    obtain ⟨first, others⟩ := List.forall_mem_cons.mp long
    rw [List.flatMap_cons, List.flatMap_cons, List.forall_mem_cons, ← ih others]
    constructor
    · intro same
      exact List.append_inj same first
    · rintro ⟨head, tail⟩
      rw [head, tail]

theorem map_taken_eq_map_typed_iff {option : String} {given : List Giving} :
    (given.map fun g => option ++ g.taken) = (given.map fun g => option ++ g.typed) ↔
      ∀ value, .attached value ∈ given → value.toList.head? ≠ some '=' := by
  simp only [List.map_inj_left, String.append_right_inj, Giving.taken_eq_typed_iff]
  constructor
  · intro same value mem
    exact same _ mem value rfl
  · rintro same _ mem value rfl
    exact same value mem

/-- **The values of options are read as they are typed**, but for an equals sign in front of an attached one. Where the
command line is accepted, make gets what is left for it, and the extra arguments are the configured ones and those of
`-I`, `-D` and `-W`, in this order and each as often and in the order in which it is typed: the option and its value. A
value that stands in an argument of its own is taken as it is, whatever it looks like, and of one that is attached an
equals sign in front is left out. So the extra arguments are what the user has typed exactly if no attached value begins
with an equals sign, and any other value means the same in both forms. An argument is read as a value, and as the value
of which option, just as it is when the command line is split. -/
theorem parse_extraArguments {args : List String} (parsed : Options.parse args = .ok o) (configured : List String) :
    let own := (split args).1
    let extra (value : Giving → String) := configured ++
      ["-I", "-D", "-W"].flatMap fun option => (givings option [] own).map fun g => option ++ value g
    o.makeArguments = (split args).2 ∧
      o.extraArguments configured = extra Giving.taken ∧
      (o.extraArguments configured = extra Giving.typed ↔
        ∀ option ∈ ["-I", "-D", "-W"], ∀ value, .attached value ∈ givings option [] own →
          value.toList.head? ≠ some '=') ∧
      (∀ front back option value, (split front).1 = front → awaitsValue front = false → option ∈ ["-I", "-D", "-W"] →
        value ≠ "" → value.toList.head? ≠ some '=' →
        args = front ++ (option ++ value) :: back ∨ args = front ++ option :: value :: back →
          Options.parse (front ++ (option ++ value) :: back) = .ok o ∧
            Options.parse (front ++ option :: value :: back) = .ok o) ∧
      ∀ before arg after, own = before ++ arg :: after →
        ∃ r next, before.foldlM Reading.push .start = .ok r ∧ r.push arg = .ok next ∧
          (awaitsValue before = true ↔ ∃ option, before.getLast? = some (Valued.text option) ∧
            r.pending = some (option, none) ∧ next.pending = some (option, some arg)) := by
  intro own extra
  obtain ⟨read, finished, same⟩ := Options.parse_eq_ok_iff.mp parsed
  have values (letter : Valued) (adds : letter.takesAnything = true) :
      o.values letter = (givings letter.text [] own).map Giving.taken := by
    have kept : o.values letter = read.values letter := by rw [same]; cases letter <;> rfl
    rw [← List.append_nil (split args).1] at finished
    obtain ⟨last, -, ended, readTo⟩ := readTo_of_split (List.append_nil own).symm finished
    rw [kept, Reading.values_of_finish ended adds, readTo.values letter adds]
    cases letter <;> rfl
  have taken : o.extraArguments configured = extra Giving.taken := by
    have includes : o.includes = _ := values .searchDir rfl
    have defines : o.defines = _ := values .define rfl
    have warnings : o.warnings = _ := values .warning rfl
    simp [Options.extraArguments, extra, includes, defines, warnings, Valued.text, Function.comp_def]
  refine ⟨by rw [same], taken, ?_, ?_, fun before arg after split => ?_⟩
  · have long : ∀ option ∈ ["-I", "-D", "-W"],
        ((givings option [] own).map fun g => option ++ g.taken).length =
          ((givings option [] own).map fun g => option ++ g.typed).length := by simp
    rw [taken, List.append_right_inj, flatMap_eq_flatMap_iff long]
    simp only [map_taken_eq_map_typed_iff]
  · intro front back letter value options idle mem filled plain form
    obtain ⟨option, adds, rfl⟩ := mem_extraOptions_iff.mp mem
    have alike : Options.parse (front ++ (option.text ++ value) :: back) = .ok o ↔
        Options.parse (front ++ option.text :: value :: back) = .ok o :=
      parse_attached_iff adds filled plain options idle
    rcases form with rfl | rfl
    · exact ⟨parsed, alike.mp parsed⟩
    · exact ⟨alike.mpr parsed, parsed⟩
  · have goesOn : ¬ EndsOptions before arg := (divides_split awaitsValue_nil args).goesOn split
    rw [show (CommandLine.split args).1 = before ++ arg :: after from split] at finished
    obtain ⟨r, reads, later, readTo⟩ := readTo_of_split split finished
    have follows : Follows before r := readTo.follows
    obtain ⟨next, pushed, -, -⟩ := follows.push goesOn later
    exact ⟨r, next, reads, pushed, follows.awaitsValue_iff later pushed⟩

/-- Options that look like others or like the separator are values here, and one value is attached behind an equals
sign. -/
def oddValues : List String :=
  ["-I", "--", "-D-n", "-W=all", "-n", "-I", "-Dx", "--output", "=", "-W", "=", "-k", "-Iy"]

theorem parse_extraArguments_oddValues :
    let o : Options :=
      ⟨true, ["--", "-Dx"], ["-n"], ["all", "="], some ⟨"="⟩, none, none, false, 0, false, ["-k", "-Iy"]⟩
    Options.parse oddValues = .ok o ∧ o.extraArguments ["-g"] = ["-g", "-I--", "-I-Dx", "-D-n", "-Wall", "-W="] ∧
      o.extraArguments ["-g"] ≠ ["-g", "-I--", "-I-Dx", "-D-n", "-W=all", "-W="] ∧
      Options.parse ("-I" :: "--" :: "-D" :: "-n" :: oddValues.drop 3) = .ok o := by
  intro o
  have parsed : Options.parse oddValues = .ok o := by rfl
  obtain ⟨-, taken, typed, forms, -⟩ := parse_extraArguments parsed ["-g"]
  have equals : .attached "=all" ∈ givings "-W" [] (split oddValues).1 := by decide +kernel
  have options : (split ["-I", "--"]).1 = ["-I", "--"] ∧ awaitsValue ["-I", "--"] = false := by decide +kernel
  refine ⟨parsed, taken.trans (by decide +kernel), fun same => ?_, ?_⟩
  · exact typed.mp (same.trans (by decide +kernel)) "-W" (by simp) "=all" equals rfl
  · exact (forms ["-I", "--"] (oddValues.drop 3) "-D" "-n" options.1 options.2 (by simp) (by decide)
      (by decide +kernel) (.inl (by decide +kernel))).2

/-- Of a value that is attached to its option an equals sign is lost. -/
theorem parse_equalsSign :
    (Options.parse ["-I=dir", "-I", "=dir"]).toOption.map (·.extraArguments []) = some ["-Idir", "-I=dir"] ∧
      ["-Idir", "-I=dir"] ≠ ["-I=dir", "-I=dir"] := by
  decide +kernel

end CompileDb.CommandLine
