import CompileDb.Database.Store
import CompileDb.Proofs.Merging
import CompileDb.Proofs.NormalForm

/-!
# Databases and their histories

A database is told by the changes that have led to it. Its keys are those of the recorded commands, in the order in
which they first came, and under every spelling of a key it holds the command that was recorded last, with just the
arguments that have been added since.
-/

namespace CompileDb.Database

/-! ## Changes -/

/-- A change of a database. -/
inductive Change where
  | upsert (command : Command)
  | addArguments (extra : List String)
deriving DecidableEq, Repr

/-- Makes a change. -/
def apply (db : Database) : Change → Database
  | .upsert command => db.upsert command
  | .addArguments extra => db.addArguments extra

namespace Change

/-- The command that a change records. -/
def command? : Change → Option Command
  | upsert command => some command
  | addArguments _ => none

/-- The arguments that a change adds. -/
def added : Change → List String
  | upsert _ => []
  | addArguments extra => extra

/-- The keys under which changes record commands, in order. -/
def keys (history : List Change) : List Path :=
  (history.filterMap command?).map Command.key

/-- The command that was recorded last under a key, with the arguments added since. -/
def Latest (history : List Change) (key : Path) (command : Command) : Prop :=
  ∃ before recorded since, history = before ++ upsert recorded :: since ∧ recorded.key = key ∧ key ∉ keys since ∧
    command = { recorded with arguments := addMissing recorded.arguments (since.flatMap added) }

@[simp] theorem keys_append (a b : List Change) : keys (a ++ b) = keys a ++ keys b := by
  simp [keys]

@[simp] theorem keys_upsert (command : Command) : keys [upsert command] = [command.key] := rfl

@[simp] theorem keys_addArguments (extra : List String) : keys [addArguments extra] = [] := rfl

/-- The last upsert of a longer history is the new one or an old one. -/
theorem latest_concat {history : List Change} {change : Change} {key : Path} {command : Command} :
    Latest (history ++ [change]) key command ↔
      (change = upsert command ∧ command.key = key) ∨
        ∃ old, Latest history key old ∧ key ∉ keys [change] ∧
          command = { old with arguments := addMissing old.arguments change.added } := by
  constructor
  · rintro ⟨before, recorded, since, split, rfl, free, rfl⟩
    rcases List.eq_nil_or_concat' since with rfl | ⟨earlier, last, rfl⟩
    · obtain ⟨-, same⟩ := List.append_inj' split rfl
      exact .inl ⟨(List.singleton_inj.mp same), rfl⟩
    · have shape : before ++ upsert recorded :: (earlier ++ [last]) = (before ++ upsert recorded :: earlier) ++ [last] := by
        simp
      obtain ⟨rfl, same⟩ := List.append_inj' (split.trans shape) rfl
      obtain rfl := List.singleton_inj.mp same
      rw [keys_append, List.mem_append, not_or] at free
      refine .inr ⟨_, ⟨before, recorded, earlier, rfl, rfl, free.1, rfl⟩, free.2, ?_⟩
      simp [addMissing_append]
  · rintro (⟨rfl, named⟩ | ⟨old, ⟨before, recorded, since, rfl, rfl, free, rfl⟩, other, rfl⟩)
    · exact ⟨history, command, [], rfl, named, List.not_mem_nil, rfl⟩
    · refine ⟨before, recorded, since ++ [change], by simp, rfl, ?_, ?_⟩
      · rw [keys_append, List.mem_append, not_or]
        exact ⟨free, other⟩
      · simp [addMissing_append]

end Change

/-! ## Looking up after a change -/

theorem find?_put (key : Path) (command : Command) (entries : List (Path × Command)) (other : Path) :
    (put key command entries).find? (·.1 = other) =
      if key = other then some (key, command) else entries.find? (·.1 = other) := by
  induction entries with
  | nil => by_cases same : key = other <;> simp [put, same]
  | cons entry rest ih =>
    rw [put]
    by_cases there : entry.1 = key
    · by_cases same : key = other <;> simp [there, same]
    · by_cases same : key = other
      · have skipped : entry.1 ≠ other := same ▸ there
        simpa [there, skipped, same] using ih
      · rw [if_neg there, List.find?_cons, List.find?_cons, ih, if_neg same, if_neg same]

/-- An upsert is seen under every spelling of its file and nowhere else. -/
theorem get?_upsert (db : Database) (command : Command) (path : Path) :
    (db.upsert command).get? path = if command.key = path.normalize then some command else db.get? path := by
  rw [get?, upsert, find?_put]
  split <;> rfl

/-- Extra arguments reach every entry that is there. -/
theorem get?_addArguments (db : Database) (extra : List String) (path : Path) :
    (db.addArguments extra).get? path =
      (db.get? path).map fun old => { old with arguments := addMissing old.arguments extra } := by
  rw [get?, addArguments, List.find?_map, get?]
  simp [Function.comp_def]

/-- Recording a command changes no entry with another key. -/
theorem getElem?_put_of_ne {key : Path} {entry : Path × Command} (ne : entry.1 ≠ key) (command : Command)
    (entries : List (Path × Command)) (i : Nat) :
    (put key command entries)[i]? = some entry ↔ entries[i]? = some entry := by
  have other : (key, command) ≠ entry := by
    rintro rfl
    exact ne rfl
  induction entries generalizing i with
  | nil => cases i <;> simp [put, other]
  | cons first rest ih =>
    rw [put]
    by_cases there : first.1 = key
    · have old : first ≠ entry := by
        rintro rfl
        exact ne there
      cases i <;> simp [there, other, old]
    · cases i with
      | zero => simp [there]
      | succ i => simpa [there] using ih i

/-! ## Runs of changes -/

/-- What a database holds after these changes. -/
structure After (history : List Change) (db : Database) : Prop where
  keyed : ∀ entry ∈ db.entries, entry.1 = entry.2.key ∧ entry.1.normalize = entry.1
  distinct : db.keys.Pairwise fun key other => ¬ key.Same other
  ordered : db.keys = (Change.keys history).eraseDups
  found : ∀ path command, db.get? path = some command ↔ Change.Latest history path.normalize command
  missing : ∀ path, db.get? path = none ↔ path.normalize ∉ Change.keys history

theorem After.empty : After [] .empty where
  keyed _ mem := absurd mem List.not_mem_nil
  distinct := .nil
  ordered := rfl
  found path command := by
    constructor
    · exact fun found => absurd found (by simp [get?, Database.empty])
    · rintro ⟨before, recorded, since, split, -⟩
      simp at split
  missing path := by
    constructor
    · exact fun _ => List.not_mem_nil
    · exact fun _ => rfl

namespace After

variable {history : List Change} {db : Database}

/-- The keys are those of the changes made. -/
theorem mem_keys (h : After history db) {key : Path} : key ∈ db.keys ↔ key ∈ Change.keys history := by
  rw [h.ordered, List.mem_eraseDups]

/-- Every key is a path in normal form. -/
theorem normal (h : After history db) {key : Path} (mem : key ∈ db.keys) : key.normalize = key := by
  obtain ⟨entry, there, rfl⟩ := List.mem_map.mp mem
  exact (h.keyed entry there).2

/-- An upsert prolongs the history. -/
theorem upsert (h : After history db) (command : Command) :
    After (history ++ [.upsert command]) (db.upsert command) where
  keyed entry mem := by
    rcases mem_put mem with rfl | mem
    · exact ⟨rfl, command.normalize_key⟩
    · exact h.keyed entry mem
  distinct := by
    rw [keys_upsert]
    split
    case isTrue => exact h.distinct
    case isFalse new =>
      refine List.pairwise_append.mpr ⟨h.distinct, List.pairwise_singleton _ _, ?_⟩
      intro key mem other last same
      rw [List.mem_singleton.mp last] at same
      have equal : key = command.key := Path.eq_of_same (h.normal mem) command.normalize_key same
      exact new (equal ▸ mem)
  ordered := by
    rw [keys_upsert, Change.keys_append, Change.keys_upsert, List.eraseDups_append, ← h.ordered]
    by_cases known : command.key ∈ db.keys
    · have nothing : [command.key].removeAll (Change.keys history) = [] := by
        simp [List.removeAll, h.mem_keys.mp known]
      rw [if_pos known, nothing, List.eraseDups_nil, List.append_nil]
    · have alone : [command.key].removeAll (Change.keys history) = [command.key] := by
        simp [List.removeAll, h.mem_keys.not.mp known]
      rw [if_neg known, alone, List.eraseDups_cons]
      rfl
  found path other := by
    rw [get?_upsert, Change.latest_concat]
    by_cases same : command.key = path.normalize
    · rw [if_pos same]
      constructor
      · intro recorded
        cases recorded
        exact .inl ⟨rfl, same⟩
      · rintro (⟨recorded, -⟩ | ⟨old, -, free, -⟩)
        · cases recorded
          rfl
        · exact absurd (List.mem_singleton.mpr same.symm) free
    · rw [if_neg same, h.found]
      constructor
      · intro latest
        exact .inr ⟨other, latest, by simpa using Ne.symm same, rfl⟩
      · rintro (⟨recorded, named⟩ | ⟨old, latest, -, rfl⟩)
        · cases recorded
          exact absurd named same
        · exact latest
  missing path := by
    rw [get?_upsert, Change.keys_append, Change.keys_upsert, List.mem_append, List.mem_singleton, not_or, ← h.missing]
    by_cases same : command.key = path.normalize
    · simp [same]
    · simp [same, Ne.symm same]

/-- Extra arguments prolong it too. -/
theorem addArguments (h : After history db) (extra : List String) :
    After (history ++ [.addArguments extra]) (db.addArguments extra) where
  keyed entry mem := by
    obtain ⟨before, old, rfl⟩ := List.mem_map.mp mem
    exact h.keyed before old
  distinct := by
    rw [keys_addArguments]
    exact h.distinct
  ordered := by
    rw [keys_addArguments, h.ordered]
    simp
  found path command := by
    rw [get?_addArguments, Change.latest_concat, Option.map_eq_some_iff]
    constructor
    · rintro ⟨old, recorded, rfl⟩
      exact .inr ⟨old, (h.found path old).mp recorded, List.not_mem_nil, rfl⟩
    · rintro (⟨other, -⟩ | ⟨old, latest, -, rfl⟩)
      · cases other
      · exact ⟨old, (h.found path old).mpr latest, rfl⟩
  missing path := by
    rw [get?_addArguments, Option.map_eq_none_iff, h.missing]
    simp

/-- Every change is remembered. -/
theorem apply (h : After history db) (change : Change) : After (history ++ [change]) (db.apply change) := by
  cases change with
  | upsert command => exact h.upsert command
  | addArguments extra => exact h.addArguments extra

/-- Changes are remembered in order. -/
theorem foldl_apply (h : After history db) (changes : List Change) :
    After (history ++ changes) (changes.foldl Database.apply db) := by
  induction changes generalizing history db with
  | nil =>
    rw [List.append_nil]
    exact h
  | cons change rest ih =>
    rw [List.append_cons]
    exact ih (h.apply change)

end After

/-! ## Documents -/

/-- The entries of a document are recorded in order. -/
theorem ofEntries_eq_ok {entries : List Entry} {db after : Database} {index : Nat}
    (ok : ofEntries db index entries = .ok after) :
    ∃ commands : List Command, entries.map Entry.toCommand = commands.map .ok ∧
      after = (commands.map Change.upsert).foldl apply db := by
  induction entries generalizing db index with
  | nil =>
    cases ok
    exact ⟨[], rfl, rfl⟩
  | cons e rest ih =>
    rw [ofEntries] at ok
    split at ok
    case h_1 => contradiction
    case h_2 c taken =>
      obtain ⟨commands, others, rfl⟩ := ih ok
      exact ⟨c :: commands, by rw [List.map_cons, taken, others, List.map_cons], rfl⟩

/-- **A database is an insertion-ordered map over lexical paths.** It begins as a document whose entries are recorded in
order. From then on, whatever commands are recorded and whatever arguments are added, every command stands under its
own key, a normal form, and no two keys are the same path. The keys are in the order in which they were first recorded.
Under every spelling of a path there is the command recorded last for it, with just the arguments added since, and
nothing if none was recorded. One more command changes no entry but that of its key. -/
theorem ofJson_history {text : String} {db : Database} (parsed : ofJson text = .ok db) :
    ∃ (entries : List Entry) (commands : List Command),
      Entry.readAll text = .ok entries ∧ entries.map Entry.toCommand = commands.map .ok ∧
        ∀ changes : List Change,
          let now := changes.foldl apply db
          After (commands.map .upsert ++ changes) now ∧
            ∀ (command : Command) (i : Nat) (entry : Path × Command), entry.1 ≠ command.key →
              ((now.upsert command).entries[i]? = some entry ↔ now.entries[i]? = some entry) := by
  unfold ofJson at parsed
  split at parsed
  case h_1 => contradiction
  case h_2 entries read =>
    obtain ⟨commands, taken, rfl⟩ := ofEntries_eq_ok parsed
    refine ⟨entries, commands, read, taken, ?_⟩
    intro changes now
    have begun : After (commands.map .upsert) ((commands.map Change.upsert).foldl apply .empty) :=
      After.empty.foldl_apply _
    exact ⟨begun.foldl_apply changes, fun command i entry ne => getElem?_put_of_ne ne command now.entries i⟩

/-- A document that has two commands for one file, under two spellings of its directory. -/
def spelledText : String :=
  "[[\"/a\",\"main.c\",\"cc -c main.c\"],[\"/a/./x/..\",\"main.c\",\"clang main.c\"]]"

/-- Changes that record a third command for that file between two lists of arguments. -/
def spelledChanges : List Change :=
  [.addArguments ["-g"], .upsert ⟨⟨"b"⟩, ⟨"/a//main.c"⟩, ["gcc", "-O2"]⟩, .addArguments ["-Wall", "-O2"]]

theorem ofJson_history_spelled :
    ∃ db, ofJson spelledText = .ok db ∧ (spelledChanges.foldl apply db).keys = [⟨"/a/main.c"⟩] ∧
      (spelledChanges.foldl apply db).get? ⟨"/a/y/..//main.c/"⟩ =
        some ⟨⟨"b"⟩, ⟨"/a//main.c"⟩, ["gcc", "-O2", "-Wall"]⟩ := by
  have keys : (ofJson spelledText).toOption.map (fun db => (spelledChanges.foldl apply db).keys) =
      some [⟨"/a/main.c"⟩] := by decide +kernel
  cases parsed : ofJson spelledText with
  | error e =>
    rw [parsed] at keys
    cases keys
  | ok db =>
    rw [parsed] at keys
    obtain ⟨entries, commands, -, -, run⟩ := ofJson_history parsed
    obtain ⟨after, -⟩ := run spelledChanges
    refine ⟨db, rfl, Option.some.inj keys, (after.found _ _).mpr ?_⟩
    refine ⟨commands.map .upsert ++ [.addArguments ["-g"]], ⟨⟨"b"⟩, ⟨"/a//main.c"⟩, ["gcc", "-O2"]⟩,
      [.addArguments ["-Wall", "-O2"]], ?_, ?_, List.not_mem_nil, ?_⟩
    · simp [spelledChanges]
    · decide +kernel
    · decide +kernel

end CompileDb.Database
