import CompileDb.Database
import Mathlib.Data.List.Basic

/-!
# Recording several commands

What becomes of a database when commands are recorded in it one after the other. An entry whose key is among theirs
keeps its place and takes the last command with that key, every other entry stays as it is, and the new keys follow in
the order in which they first come. Arguments that are added once are not added again.
-/

namespace CompileDb

/-! ## The last command for a key -/

namespace Command

/-- The last of some commands that has a key. -/
def last? (commands : List Command) (key : Path) : Option Command :=
  commands.findRev? (·.key = key)

/-- The last command for a key is the later one, if there is one. -/
theorem last?_cons (c : Command) (rest : List Command) (key : Path) :
    last? (c :: rest) key = (last? rest key).or (if c.key = key then some c else none) := by
  simp only [last?, List.findRev?_eq_find?_reverse, List.reverse_cons, List.find?_append, List.find?_singleton]
  by_cases same : c.key = key <;> simp [same]

theorem last?_cons_of_ne {c : Command} {key : Path} (ne : c.key ≠ key) (rest : List Command) :
    last? (c :: rest) key = last? rest key := by
  rw [last?_cons, if_neg ne, Option.or_none]

theorem last?_cons_self (c : Command) (rest : List Command) :
    last? (c :: rest) c.key = some ((last? rest c.key).getD c) := by
  rw [last?_cons, if_pos rfl]
  cases last? rest c.key <;> rfl

/-- A command of which it is the turn comes before an older one and behind those that follow. -/
theorem getD_last?_cons (c : Command) (rest : List Command) (key : Path) (old : Command) :
    (last? (c :: rest) key).getD old = (last? rest key).getD (if key = c.key then c else old) := by
  by_cases same : key = c.key
  · rw [same, last?_cons_self, if_pos rfl, Option.getD_some]
  · rw [last?_cons_of_ne (Ne.symm same), if_neg same]

end Command

namespace Database

/-! ## One command -/

/-- A new key goes to the end. -/
theorem put_of_notMem {key : Path} {entries : List (Path × Command)} (new : key ∉ entries.map Prod.fst)
    (command : Command) : put key command entries = entries ++ [(key, command)] := by
  induction entries with
  | nil => rfl
  | cons entry rest ih =>
    rw [List.map_cons, List.mem_cons, not_or] at new
    rw [put, if_neg (Ne.symm new.1), ih new.2, List.cons_append]

/-- Where no entry has the key, none is changed. -/
theorem map_replace_of_notMem {key : Path} {entries : List (Path × Command)} (new : key ∉ entries.map Prod.fst)
    (command : Command) :
    entries.map (fun entry => (entry.1, if entry.1 = key then command else entry.2)) = entries := by
  induction entries with
  | nil => rfl
  | cons entry rest ih =>
    rw [List.map_cons, List.mem_cons, not_or] at new
    rw [List.map_cons, if_neg (Ne.symm new.1), ih new.2]

/-- Where the keys are distinct, only the entry with the key is changed. -/
theorem put_of_mem {key : Path} {entries : List (Path × Command)} (distinct : (entries.map Prod.fst).Nodup)
    (known : key ∈ entries.map Prod.fst) (command : Command) :
    put key command entries = entries.map fun entry => (entry.1, if entry.1 = key then command else entry.2) := by
  induction entries with
  | nil => exact absurd known List.not_mem_nil
  | cons entry rest ih =>
    rw [List.map_cons, List.nodup_cons] at distinct
    rw [put, List.map_cons]
    by_cases same : entry.1 = key
    · rw [if_pos same, if_pos same, map_replace_of_notMem (same ▸ distinct.1), same]
    · have behind : key ∈ rest.map Prod.fst := (List.mem_cons.mp known).resolve_left (Ne.symm same)
      rw [if_neg same, if_neg same, ih distinct.2 behind]

theorem mem_put {key : Path} {command : Command} {entries : List (Path × Command)} {entry : Path × Command}
    (mem : entry ∈ put key command entries) : entry = (key, command) ∨ entry ∈ entries := by
  induction entries with
  | nil => exact .inl (by simpa [put] using mem)
  | cons first rest ih =>
    rw [put] at mem
    split at mem
    case isTrue =>
      rcases List.mem_cons.mp mem with rfl | mem
      · exact .inl rfl
      · exact .inr (List.mem_cons_of_mem first mem)
    case isFalse =>
      rcases List.mem_cons.mp mem with rfl | mem
      · exact .inr List.mem_cons_self
      · exact (ih mem).imp id (List.mem_cons_of_mem first)

/-- What is in a list to which an element is appended where it is missing. -/
theorem mem_appendMissing {α : Type} {a b : α} {l : List α} [Decidable (b ∈ l)] :
    a ∈ (if b ∈ l then l else l ++ [b]) ↔ a ∈ l ∨ a = b := by
  split
  case isTrue there =>
    constructor
    · exact .inl
    · rintro (old | rfl)
      · exact old
      · exact there
  case isFalse => rw [List.mem_append, List.mem_singleton]

theorem mem_keys_upsert {db : Database} {command : Command} {key : Path} :
    key ∈ (db.upsert command).keys ↔ key ∈ db.keys ∨ key = command.key := by
  rw [keys_upsert, mem_appendMissing]

/-- Recording a command keeps the keys distinct. -/
theorem nodup_keys_upsert {db : Database} (distinct : db.keys.Nodup) (command : Command) :
    (db.upsert command).keys.Nodup := by
  rw [keys_upsert]
  split
  case isTrue => exact distinct
  case isFalse new =>
    rw [List.nodup_append]
    refine ⟨distinct, by simp, ?_⟩
    rintro key mem _ last rfl
    rw [List.mem_singleton.mp last] at mem
    exact new mem

/-! ## Several commands -/

/-- The first of some elements counts among those that are not seen yet, each once, if it is not seen itself. From then
on it is. -/
theorem eraseDups_removeAll_cons {α : Type} [DecidableEq α] (a : α) (rest seen : List α) :
    ((a :: rest).removeAll seen).eraseDups =
      if a ∈ seen then (rest.removeAll seen).eraseDups else a :: (rest.removeAll (seen ++ [a])).eraseDups := by
  by_cases known : a ∈ seen
  · rw [if_pos known, List.cons_removeAll]
    simp [known]
  · have others : (rest.removeAll seen).filter (!· == a) = rest.removeAll (seen ++ [a]) := by
      simp only [List.removeAll, List.filter_filter]
      apply List.filter_congr
      intro b _
      by_cases same : b = a <;> simp [same]
    rw [if_neg known, ← others, ← List.eraseDups_cons, List.cons_removeAll]
    simp [known]

/-- The keys of commands that a database does not have, in the order in which they first come. -/
def newKeys (db : Database) (commands : List Command) : List Path :=
  ((commands.map Command.key).removeAll db.keys).eraseDups

theorem mem_newKeys {db : Database} {commands : List Command} {key : Path} :
    key ∈ db.newKeys commands ↔ key ∈ commands.map Command.key ∧ key ∉ db.keys := by
  simp [newKeys, List.removeAll]

theorem newKeys_cons_of_mem {db : Database} {c : Command} (known : c.key ∈ db.keys) (rest : List Command) :
    db.newKeys (c :: rest) = (db.upsert c).newKeys rest := by
  rw [newKeys, List.map_cons, eraseDups_removeAll_cons, if_pos known, newKeys, keys_upsert, if_pos known]

/-- A new key comes before those of the later commands. -/
theorem newKeys_cons_of_notMem {db : Database} {c : Command} (new : c.key ∉ db.keys) (rest : List Command) :
    db.newKeys (c :: rest) = c.key :: (db.upsert c).newKeys rest := by
  rw [newKeys, List.map_cons, eraseDups_removeAll_cons, if_neg new, newKeys, keys_upsert, if_neg new]

/-- **Recording commands merges them.** Old entries keep their places, with the last command for their key if there is
one. Behind them come the new keys, each with the last command for it. -/
theorem entries_foldl_upsert {db : Database} (distinct : db.keys.Nodup) (commands : List Command) :
    (commands.foldl upsert db).entries =
      db.entries.map (fun entry => (entry.1, (Command.last? commands entry.1).getD entry.2)) ++
        (db.newKeys commands).filterMap fun key => (Command.last? commands key).map (key, ·) := by
  induction commands generalizing db with
  | nil => simp [Command.last?]
  | cons c rest ih =>
    rw [List.foldl_cons, ih (nodup_keys_upsert distinct c)]
    -- The first command does not change what the others make of any key but its own.
    have later : ∀ key ∈ (db.upsert c).newKeys rest,
        (Command.last? rest key).map (key, ·) = (Command.last? (c :: rest) key).map (key, ·) := by
      intro key mem
      have ne : c.key ≠ key := by
        rintro rfl
        exact (mem_newKeys.mp mem).2 (mem_keys_upsert.mpr (.inr rfl))
      rw [Command.last?_cons_of_ne ne]
    by_cases known : c.key ∈ db.keys
    · have changed : (db.upsert c).entries = _ := put_of_mem distinct known c
      rw [changed, newKeys_cons_of_mem known, List.filterMap_congr later, List.map_map]
      simp only [Command.getD_last?_cons]
      rfl
    · have appended : (db.upsert c).entries = _ := put_of_notMem known c
      have others : db.entries.map (fun entry => (entry.1, (Command.last? (c :: rest) entry.1).getD entry.2)) =
          db.entries.map (fun entry => (entry.1, (Command.last? rest entry.1).getD entry.2)) := by
        apply List.map_congr_left
        intro entry mem
        have ne : c.key ≠ entry.1 := fun same => known (same ▸ List.mem_map_of_mem mem)
        rw [Command.last?_cons_of_ne ne]
      rw [appended, newKeys_cons_of_notMem known, List.filterMap_congr later, others]
      simp [Command.last?_cons_self]

/-- Upserts keep the keys distinct. -/
theorem nodup_keys_foldl_upsert {db : Database} (distinct : db.keys.Nodup) (commands : List Command) :
    (commands.foldl upsert db).keys.Nodup := by
  induction commands generalizing db with
  | nil => exact distinct
  | cons c rest ih => exact ih (nodup_keys_upsert distinct c)

theorem mem_keys_foldl_upsert {db : Database} {commands : List Command} {key : Path} :
    key ∈ (commands.foldl upsert db).keys ↔ key ∈ db.keys ∨ key ∈ commands.map Command.key := by
  induction commands generalizing db with
  | nil => simp
  | cons c rest ih =>
    rw [List.foldl_cons, ih, mem_keys_upsert, List.map_cons, List.mem_cons, or_assoc]

/-- Where commands have been recorded, the last one for a key stands under it. -/
theorem eq_of_mem_foldl_upsert {db : Database} (distinct : db.keys.Nodup) {commands : List Command}
    {entry : Path × Command} (mem : entry ∈ (commands.foldl upsert db).entries) {c : Command}
    (last : Command.last? commands entry.1 = some c) : entry.2 = c := by
  rw [entries_foldl_upsert distinct, List.mem_append] at mem
  rcases mem with old | new
  · obtain ⟨before, -, rfl⟩ := List.mem_map.mp old
    simp only at last
    rw [last, Option.getD_some]
  · obtain ⟨key, -, made⟩ := List.mem_filterMap.mp new
    obtain ⟨command, found, rfl⟩ := Option.map_eq_some_iff.mp made
    exact Option.some.inj (found.symm.trans last)

/-! ## Adding arguments -/

/-- Arguments added in two goes are added in one. -/
theorem addMissing_append (arguments a b : List String) :
    addMissing arguments (a ++ b) = addMissing (addMissing arguments a) b :=
  List.foldl_append

theorem mem_addMissing {arguments extra : List String} {a : String} :
    a ∈ addMissing arguments extra ↔ a ∈ arguments ∨ a ∈ extra := by
  induction extra generalizing arguments with
  | nil => simp [addMissing]
  | cons first extra ih =>
    rw [addMissing, List.foldl_cons, ← addMissing, ih, List.mem_cons]
    simp only [List.contains_iff_mem]
    rw [mem_appendMissing, or_assoc]

/-- Arguments that are all there are not added. -/
theorem addMissing_of_subset {arguments extra : List String} (there : extra ⊆ arguments) :
    addMissing arguments extra = arguments := by
  induction extra with
  | nil => rfl
  | cons first extra ih =>
    obtain ⟨mem, others⟩ := List.cons_subset.mp there
    rw [addMissing, List.foldl_cons, if_pos (List.contains_iff_mem.mpr mem)]
    exact ih others

/-- Adding arguments again adds nothing. -/
theorem addMissing_addMissing (arguments extra : List String) :
    addMissing (addMissing arguments extra) extra = addMissing arguments extra :=
  addMissing_of_subset fun _ mem => mem_addMissing.mpr (.inr mem)

/-- What is added is what is missing, each argument once, in the order in which they first come. -/
theorem addMissing_eq_append (arguments extra : List String) :
    addMissing arguments extra = arguments ++ (extra.removeAll arguments).eraseDups := by
  induction extra generalizing arguments with
  | nil => simp [addMissing, List.removeAll]
  | cons first extra ih =>
    rw [addMissing, List.foldl_cons, ← addMissing, ih, eraseDups_removeAll_cons]
    by_cases there : first ∈ arguments
    · rw [if_pos there, if_pos (List.contains_iff_mem.mpr there)]
    · rw [if_neg there, if_neg fun seen => there (List.contains_iff_mem.mp seen), List.append_assoc,
        List.singleton_append]

/-- Extra arguments given to a database in two goes are given in one. -/
theorem addArguments_addArguments (db : Database) (a b : List String) :
    (db.addArguments a).addArguments b = db.addArguments (a ++ b) := by
  simp only [addArguments, List.map_map, Function.comp_def, addMissing_append]

/-- Arguments that have all been added before are not added. -/
theorem addArguments_append_of_subset (db : Database) {a b : List String} (there : b ⊆ a) :
    db.addArguments (a ++ b) = db.addArguments a := by
  have same : ∀ arguments, addMissing (addMissing arguments a) b = addMissing arguments a :=
    fun _ => addMissing_of_subset fun _ mem => mem_addMissing.mpr (.inr (there mem))
  simp only [addArguments, addMissing_append, same]

/-- Recording the same commands and adding the same arguments once more changes nothing: a replaced command gets its
arguments again, and one that is not replaced has them already. -/
theorem addArguments_foldl_upsert_again {db : Database} (distinct : db.keys.Nodup) (commands : List Command)
    (extra : List String) :
    (commands.foldl upsert ((commands.foldl upsert db).addArguments extra)).addArguments extra =
      (commands.foldl upsert db).addArguments extra := by
  have merged := nodup_keys_foldl_upsert distinct commands
  generalize once : (commands.foldl upsert db).addArguments extra = after
  have keys : after.keys = (commands.foldl upsert db).keys := by
    rw [← once, keys_addArguments]
  have known : after.newKeys commands = [] := by
    rw [List.eq_nil_iff_forall_not_mem]
    intro key new
    obtain ⟨recorded, absent⟩ := mem_newKeys.mp new
    rw [keys, mem_keys_foldl_upsert] at absent
    exact absent (.inr recorded)
  have same : ∀ entry ∈ after.entries,
      (entry.1, { (Command.last? commands entry.1).getD entry.2 with
        arguments := addMissing ((Command.last? commands entry.1).getD entry.2).arguments extra }) = entry := by
    intro entry mem
    rw [← once] at mem
    obtain ⟨before, there, rfl⟩ := List.mem_map.mp mem
    cases last : Command.last? commands before.1 with
    | none => simp [addMissing_addMissing]
    | some c => simp [eq_of_mem_foldl_upsert distinct there last]
  have entries : (commands.foldl upsert after).entries = _ := entries_foldl_upsert (keys ▸ merged) commands
  rw [addArguments, entries, known, List.filterMap_nil, List.append_nil, List.map_map]
  exact congrArg mk ((List.map_congr_left same).trans (List.map_id _))

/-- **Every command gets the arguments that it lacks.** Each entry keeps its place, its key, its directory and its file,
and behind its arguments come those of the added ones that it does not have yet, each once, in the order in which they
first come. So adding arguments twice is adding them once, adding some and then others is adding both in one list, and
whatever has been added before is not added again. -/
theorem entries_addArguments (db : Database) (extra later : List String) :
    (db.addArguments extra).entries = db.entries.map (fun entry =>
        (entry.1, ⟨entry.2.directory, entry.2.file,
          entry.2.arguments ++ (extra.removeAll entry.2.arguments).eraseDups⟩)) ∧
      (db.addArguments extra).addArguments extra = db.addArguments extra ∧
      (db.addArguments extra).addArguments later = db.addArguments (extra ++ later) ∧
      (later ⊆ extra → (db.addArguments extra).addArguments later = db.addArguments extra) := by
  refine ⟨?_, ?_, addArguments_addArguments db extra later, fun there => ?_⟩
  · simp only [addArguments, addMissing_eq_append]
  · rw [addArguments_addArguments, addArguments_append_of_subset db (List.Subset.refl extra)]
  · rw [addArguments_addArguments, addArguments_append_of_subset db there]

/-- Two commands, of which the second one has an argument twice that the first one lacks. -/
def warnedDatabase : Database :=
  ⟨[(⟨"/b/a.c"⟩, ⟨⟨"/b"⟩, ⟨"a.c"⟩, ["cc", "-c", "a.c"]⟩),
    (⟨"/b/b.c"⟩, ⟨⟨"/b"⟩, ⟨"b.c"⟩, ["cc", "-Wall", "-Wall", "b.c"]⟩)]⟩

theorem entries_addArguments_warned :
    ["-g"] ⊆ ["-Wall", "-g", "-Wall"] ∧
      ((warnedDatabase.addArguments ["-Wall", "-g", "-Wall"]).addArguments ["-g"]).entries =
        [(⟨"/b/a.c"⟩, ⟨⟨"/b"⟩, ⟨"a.c"⟩, ["cc", "-c", "a.c", "-Wall", "-g"]⟩),
          (⟨"/b/b.c"⟩, ⟨⟨"/b"⟩, ⟨"b.c"⟩, ["cc", "-Wall", "-Wall", "b.c", "-g"]⟩)] := by
  obtain ⟨entries, -, -, again⟩ := entries_addArguments warnedDatabase ["-Wall", "-g", "-Wall"] ["-g"]
  have there : ["-g"] ⊆ ["-Wall", "-g", "-Wall"] := by simp
  refine ⟨there, ?_⟩
  rw [again there, entries]
  decide

end Database

end CompileDb
