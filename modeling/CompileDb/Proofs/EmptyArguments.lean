import CompileDb.Proofs.SessionMerge
import CompileDb.Proofs.SourceFile

/-!
# Empty arguments

Empty pieces between the spaces of a line are passed over, but only then do the others lose their backslashes: a word of
nothing but backslashes is recorded as an empty argument. No other argument of a recorded command is empty, so
`feedAll_filled_iff` tells exactly when a session keeps a database free of them.
-/

namespace CompileDb

namespace Make.Invocation

/-- Only words of nothing but backslashes become empty. -/
theorem withoutBackslashes_eq_empty_iff {word : String} :
    withoutBackslashes word = "" ↔ ∀ c ∈ word.toList, c = '\\' := by
  rw [withoutBackslashes, String.ofList_eq_empty_iff, List.filter_eq_nil_iff]
  simp

/-- The first word of a call is not empty, and each later one is recorded as an empty argument exactly if it has nothing
but backslashes. -/
theorem empty_mem_arguments_iff {line : String} {call : Invocation} (read : ofLine? line = some call) :
    "" ∈ call.arguments ↔ ∃ word ∈ laterWords line, ∀ c ∈ word.toList, c = '\\' := by
  obtain ⟨compiler, -, arguments⟩ := ofLine?_eq_some_iff.1 read
  have first : "" ≠ firstWord line := by
    intro same
    rw [← same, isCompiler_empty] at compiler
    exact Bool.false_ne_true compiler
  rw [arguments, List.mem_cons, or_iff_right first, List.mem_map]
  simp only [withoutBackslashes_eq_empty_iff]

end Make.Invocation

/-! ## The last command for each key -/

/-- The last command for a key is one with that key behind which no other has it. -/
theorem Command.last?_eq_some_iff {commands : List Command} {key : Path} {c : Command} :
    last? commands key = some c ↔
      c.key = key ∧ ∃ front back, commands = front ++ c :: back ∧ key ∉ back.map Command.key := by
  rw [last?, List.findRev?_eq_find?_reverse, List.find?_eq_some_iff_append, decide_eq_true_eq]
  refine and_congr_right fun _ => ⟨?_, ?_⟩
  · rintro ⟨behind, before, split, others⟩
    refine ⟨before.reverse, behind.reverse, ?_, ?_⟩
    · simpa using congrArg List.reverse split
    · simpa using others
  · rintro ⟨front, back, rfl, others⟩
    exact ⟨back.reverse, front.reverse, by simp, by simpa using others⟩

namespace Database

/-- Where commands have been recorded, what stands under a key that none of them has was there before. -/
theorem mem_of_mem_foldl_upsert {db : Database} (distinct : db.keys.Nodup) {commands : List Command}
    {entry : Path × Command} (mem : entry ∈ (commands.foldl upsert db).entries)
    (other : Command.last? commands entry.1 = none) : entry ∈ db.entries := by
  rw [entries_foldl_upsert distinct, List.mem_append] at mem
  rcases mem with old | new
  · obtain ⟨before, there, rfl⟩ := List.mem_map.1 old
    simp only at other
    rw [other, Option.getD_none]
    exact there
  · obtain ⟨key, -, made⟩ := List.mem_filterMap.1 new
    obtain ⟨command, found, rfl⟩ := Option.map_eq_some_iff.1 made
    exact absurd (other.symm.trans found) (Option.some_ne_none command).symm

/-- No command has an empty argument. -/
def Filled (db : Database) : Prop := ∀ entry ∈ db.entries, "" ∉ entry.2.arguments

/-- What counts of the commands recorded in a database is the last one for each key. -/
theorem filled_foldl_upsert_iff {db : Database} (distinct : db.keys.Nodup) (filled : db.Filled)
    (commands : List Command) :
    (commands.foldl upsert db).Filled ↔
      ∀ front c back, commands = front ++ c :: back → c.key ∉ back.map Command.key → "" ∉ c.arguments := by
  constructor
  · intro stays front c back split others
    have last : Command.last? commands c.key = some c :=
      Command.last?_eq_some_iff.2 ⟨rfl, front, back, split, others⟩
    have known : c.key ∈ (commands.foldl upsert db).keys := mem_keys_foldl_upsert.2 (.inr (by simp [split]))
    obtain ⟨entry, there, same⟩ := List.mem_map.1 known
    have recorded : entry.2 = c := eq_of_mem_foldl_upsert distinct there (same ▸ last)
    rw [← recorded]
    exact stays entry there
  · intro lasts entry mem
    cases last : Command.last? commands entry.1 with
    | some c =>
      obtain ⟨same, front, back, split, others⟩ := Command.last?_eq_some_iff.1 last
      rw [eq_of_mem_foldl_upsert distinct mem last]
      exact lasts front c back split (same ▸ others)
    | none => exact filled entry (mem_of_mem_foldl_upsert distinct mem last)

end Database

namespace Make

/-! ## Sessions -/

/-- A recorded command is a call that the line prints. -/
theorem Directories.ofLine?_of_read {d : Directories} {line : String} {command : Command}
    (read : (d.read line).2 = .ok (some command)) :
    ∃ call, Invocation.ofLine? line = some call ∧ command.arguments = call.arguments := by
  obtain ⟨_, call, directory, -, printed, -, rfl⟩ := Directories.read_eq_ok_some_iff.1 (Prod.ext rfl read)
  exact ⟨call, printed, rfl⟩

namespace Session

theorem feedAll_append (s : Session) (a b : List String) : s.feedAll (a ++ b) = (s.feedAll a).feedAll b :=
  List.foldl_append

/-- What a session records has no influence on its stack. -/
theorem directories_feed (s : Session) (line : String) : (s.feed line).1.directories = (s.directories.read line).1 := by
  rw [feed_eq]

/-- The second stretch records from the stack the first one leaves. -/
theorem recordedBy_append (s : Session) (a b : List String) :
    s.directories.recordedBy (a ++ b) = s.directories.recordedBy a ++ (s.feedAll a).directories.recordedBy b := by
  induction a generalizing s with
  | nil => rfl
  | cons line a ih =>
    rw [List.cons_append, Directories.recordedBy_cons, Directories.recordedBy_cons, ← directories_feed, ih,
      List.append_assoc]
    rfl

/-- Each recorded command is recorded by a line, those before it by the lines before, and those behind it by the lines
behind. -/
theorem recordedBy_eq_append_cons {s : Session} {lines : List String} {a b : List Command} {c : Command}
    (split : s.directories.recordedBy lines = a ++ c :: b) :
    ∃ front line back, lines = front ++ line :: back ∧
      ((s.feedAll front).directories.read line).2 = .ok (some c) ∧
      (s.feedAll (front ++ [line])).directories.recordedBy back = b := by
  induction lines generalizing s a with
  | nil => simp [Directories.recordedBy, Directories.readAll] at split
  | cons line rest ih =>
    have later {a : List Command} (split : (s.directories.read line).1.recordedBy rest = a ++ c :: b) :
        ∃ front line' back, line :: rest = front ++ line' :: back ∧
          ((s.feedAll front).directories.read line').2 = .ok (some c) ∧
          (s.feedAll (front ++ [line'])).directories.recordedBy back = b := by
      rw [← directories_feed] at split
      obtain ⟨front, line', back, rfl, read, behind⟩ := ih split
      exact ⟨line :: front, line', back, rfl, read, behind⟩
    rw [Directories.recordedBy_cons] at split
    cases read : (s.directories.read line).2 with
    | error e =>
      rw [read] at split
      exact later split
    | ok recorded =>
      rw [read] at split
      cases recorded with
      | none => exact later split
      | some first =>
        cases a with
        | cons _ a => exact later (List.cons.inj split).2
        | nil =>
          obtain ⟨rfl, rfl⟩ := List.cons.inj split
          refine ⟨[], line, rest, rfl, read, ?_⟩
          rw [← directories_feed]
          rfl

/-- A line that records a command answers with its key. -/
theorem feed_eq_ok_some_iff {s : Session} {line : String} {key : Path} :
    (s.feed line).2 = .ok (some key) ↔ ∃ c, (s.directories.read line).2 = .ok (some c) ∧ c.key = key := by
  rw [feed_eq]
  rcases (s.directories.read line).2 with e | _ | c <;> simp [Except.map]

/-- **A session keeps a database free of empty arguments** exactly if each line that records a command, and is the last
to do so for its key, has a character other than a backslash in every word behind the first. -/
theorem feedAll_filled_iff {s : Session} (distinct : s.database.keys.Nodup) (filled : s.database.Filled)
    (lines : List String) :
    (s.feedAll lines).database.Filled ↔
      ∀ front line back key, lines = front ++ line :: back → ((s.feedAll front).feed line).2 = .ok (some key) →
        key ∉ ((s.feedAll (front ++ [line])).answers back).filterMap (·.2.toOption.join) →
        ∀ word ∈ Invocation.laterWords line, ∃ c ∈ word.toList, c ≠ '\\' := by
  rw [(feedAll_eq_foldl s lines).1, Database.filled_foldl_upsert_iff distinct filled]
  constructor
  · intro lasts front line back key split recorded others word mem
    obtain ⟨c, read, rfl⟩ := feed_eq_ok_some_iff.1 recorded
    obtain ⟨call, printed, arguments⟩ := Directories.ofLine?_of_read read
    have commands : s.directories.recordedBy lines = s.directories.recordedBy front ++
        c :: (s.feedAll (front ++ [line])).directories.recordedBy back := by
      rw [split, recordedBy_append, Directories.recordedBy_cons, read, ← directories_feed, feedAll_append]
      rfl
    rw [filterMap_answers] at others
    have filledCall := lasts _ c _ commands others
    rw [arguments, Invocation.empty_mem_arguments_iff printed] at filledCall
    by_contra backslashes
    exact filledCall ⟨word, mem, by simpa using backslashes⟩
  · intro lasts a c b split others empty
    obtain ⟨front, line, back, rfl, read, rfl⟩ := recordedBy_eq_append_cons split
    obtain ⟨call, printed, arguments⟩ := Directories.ofLine?_of_read read
    rw [arguments, Invocation.empty_mem_arguments_iff printed] at empty
    obtain ⟨word, mem, backslashes⟩ := empty
    rw [← filterMap_answers] at others
    obtain ⟨other, inside, ne⟩ :=
      lasts front line back c.key rfl (feed_eq_ok_some_iff.2 ⟨c, read, rfl⟩) others word mem
    exact ne (backslashes other inside)

/-- The first call goes on in the next line of its recipe, and the backslash that says so is recorded as a word. -/
def continuedLines : List String :=
  ["make: Entering directory '/p'", "gcc -c b.c \\", "gcc -c a.c", "make: Leaving directory '/p'"]

theorem feedAll_filled_iff_continued :
    (start olderDatabase).database.keys.Nodup ∧ (start olderDatabase).database.Filled ∧
      ¬ ((start olderDatabase).feedAll continuedLines).database.Filled := by
  have distinct : (start olderDatabase).database.keys.Nodup := by decide +kernel
  have filled : (start olderDatabase).database.Filled := by
    simp only [Database.Filled]
    decide +kernel
  refine ⟨distinct, filled, fun stays => ?_⟩
  have recorded : (((start olderDatabase).feedAll ["make: Entering directory '/p'"]).feed "gcc -c b.c \\").2 =
      .ok (some ⟨"/p/b.c"⟩) := by decide +kernel
  have others : (⟨"/p/b.c"⟩ : Path) ∉
      (((start olderDatabase).feedAll (["make: Entering directory '/p'"] ++ ["gcc -c b.c \\"])).answers
        ["gcc -c a.c", "make: Leaving directory '/p'"]).filterMap (·.2.toOption.join) := by decide +kernel
  have last : "\\" ∈ Invocation.laterWords "gcc -c b.c \\" := by decide +kernel
  obtain ⟨c, inside, other⟩ :=
    (feedAll_filled_iff distinct filled continuedLines).1 stays _ _ _ _ rfl recorded others "\\" last
  exact other (List.mem_singleton.1 inside)

/-- A session that begins with no database records an empty argument. -/
theorem feedAll_continued :
    Database.empty.Filled ∧
      ((start .empty).feedAll ["make: Entering directory '/p'", "gcc -c a.c \\"]).database.entries =
        [(⟨"/p/a.c"⟩, ⟨⟨"/p"⟩, ⟨"a.c"⟩, ["gcc", "-c", "a.c", ""]⟩)] := by
  refine ⟨fun entry mem => absurd mem List.not_mem_nil, ?_⟩
  decide +kernel

end Session

end Make

end CompileDb
