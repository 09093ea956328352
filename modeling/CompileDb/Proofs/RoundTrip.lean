import CompileDb.Database.Store
import CompileDb.Proofs.DatabaseText
import CompileDb.Proofs.Encoding
import CompileDb.Proofs.ReachableDatabase
import CompileDb.Proofs.Results
import CompileDb.Proofs.WrittenFile

/-!
# Databases are read back

Recording the commands of a database one after the other builds it up again, in the same order. So what is written of a
database is read back as that database, from a text as well as from a file.
-/

namespace CompileDb.Database

/-- Commands with new keys are recorded behind those that are there. -/
theorem foldl_upsert_append {before after : List (Path × Command)}
    (distinct : ((before ++ after).map Prod.fst).Nodup) (keyed : ∀ entry ∈ after, entry.1 = entry.2.key) :
    (after.map Prod.snd).foldl upsert ⟨before⟩ = ⟨before ++ after⟩ := by
  induction after generalizing before with
  | nil => simp
  | cons entry after ih =>
    have new : entry.1 ∉ before.map Prod.fst := by
      rw [List.map_append, List.nodup_append] at distinct
      intro mem
      exact distinct.2.2 entry.1 mem entry.1 (by simp) rfl
    have recorded : upsert ⟨before⟩ entry.2 = ⟨before ++ [entry]⟩ := by
      rw [upsert, ← keyed entry List.mem_cons_self, put_of_notMem new]
    rw [List.map_cons, List.foldl_cons, recorded, ih (by simpa using distinct)
      (fun other mem => keyed other (List.mem_cons_of_mem entry mem))]
    simp

/-- A well-formed database is built up again from its commands. -/
theorem WellFormed.foldl_upsert_commands {db : Database} (wf : db.WellFormed) :
    db.commands.foldl Database.upsert .empty = db :=
  @foldl_upsert_append [] db.entries wf.distinct wf.keyed

/-- Reading the written commands is upserting them in order. -/
theorem ofEntries_map_ofCommand {commands : List Command} (called : ∀ c ∈ commands, c.arguments ≠ []) (db : Database)
    (index : Nat) : ofEntries db index (commands.map Entry.ofCommand) = .ok (commands.foldl upsert db) := by
  induction commands generalizing db index with
  | nil => rfl
  | cons c rest ih =>
    rw [List.map_cons, ofEntries, Entry.toCommand_ofCommand (called c List.mem_cons_self)]
    exact ih (fun other mem => called other (List.mem_cons_of_mem c mem)) _ _

/-- The document of a well-formed database is read back, also with blanks behind it. -/
theorem WellFormed.ofJson_toJson_append {db : Database} (wf : db.WellFormed) {blanks : String}
    (blank : ∀ c ∈ blanks.toList, Json.isJsonBlank c = true) : Database.ofJson (db.toJson ++ blanks) = .ok db := by
  have called : ∀ c ∈ db.commands, c.arguments ≠ [] := by
    intro c mem
    obtain ⟨entry, stands, rfl⟩ := List.mem_map.mp mem
    exact wf.called entry stands
  rw [Database.ofJson, Entry.readAll_toJson db blank]
  simp only
  rw [ofEntries_map_ofCommand called, wf.foldl_upsert_commands]

/-- A stored database is written as its text. -/
theorem write_of_store {db : Database} {files files' : FileTree} {path : Path}
    (stored : db.store files path = .ok files') : files.write path (Text.encode db.fileText) = .ok files' :=
  mapError_eq_ok_iff.mp stored

/-- What is stored where there is room for it is stored as it would be with any room. -/
theorem store_of_storeWithin {db : Database} {room : Option Nat} {files files' : FileTree} {path : Path}
    (stored : db.storeWithin room files path = (files', none)) : db.store files path = .ok files' := by
  obtain ⟨rfl, fine⟩ := Prod.mk.inj stored
  have written := FileTree.write_of_writeWithin (Prod.ext rfl (Option.map_eq_none_iff.mp fine))
  rw [store, written]
  rfl

/-- A stored database is loaded again, unless its path leads to a device, which keeps nothing. -/
theorem WellFormed.load_of_store {db : Database} (wf : db.WellFormed) {files files' : FileTree} {path : Path}
    (stored : db.store files path = .ok files') :
    (∃ d, files.look path = .ok (.device d)) ∨ load files' path = .ok db := by
  refine (FileTree.read_of_write (write_of_store stored)).imp id fun read => ?_
  have parsed : Database.ofJson db.fileText = .ok db :=
    @ofJson_toJson_append db wf "\n" (List.forall_mem_singleton.mpr rfl)
  rw [load, read]
  simp only [Text.decode?_encode, parsed]
  rfl

/-- No database is loaded from a device: it has no bytes, or they have no end. -/
theorem look_of_load {db : Database} {files : FileTree} {path : Path} (loaded : load files path = .ok db)
    (d : Device) : files.look path ≠ .ok (.device d) := by
  intro there
  have read : files.read path = .ok [] ∨ files.read path = .error .tooLong := by
    cases d <;> simp [FileTree.read, there]
  rw [load] at loaded
  rcases read with read | read
  · rw [read] at loaded
    have nothing : Text.decode? [] = some "" := rfl
    have unfinished : Database.ofJson "" = .error (.malformed .endOfInput) := rfl
    simp only [nothing, unfinished] at loaded
    cases loaded
  · simp [read] at loaded

/-- **A database survives its file.** What is written of a database that can come about is read back as that database:
the same commands with the same texts under the same keys in the same order. A stored database is loaded again, unless
its path leads to a device, which keeps nothing. -/
theorem ofJson_toJson {db : Database} (reachable : db.Reachable) :
    Database.ofJson db.toJson = .ok db ∧
      ∀ (files files' : FileTree) (path : Path), db.store files path = .ok files' →
        (∃ d, files.look path = .ok (.device d)) ∨ load files' path = .ok db := by
  refine ⟨?_, fun files files' path stored => reachable.wellFormed.load_of_store stored⟩
  rw [← String.append_empty (s := db.toJson)]
  exact reachable.wellFormed.ofJson_toJson_append (List.forall_mem_nil _)

/-- A database whose texts need escapes, with an empty word and characters of every length. -/
def oddDatabase : Database :=
  (Database.empty.upsert ⟨⟨"/p q"⟩, ⟨"a\"\\\n\x01é😀.c"⟩, ["gcc", "", "-DX=\"1\""]⟩).addArguments ["-I.."]

theorem ofJson_toJson_oddDatabase :
    oddDatabase.Reachable ∧ Database.ofJson oddDatabase.toJson = .ok oddDatabase ∧
      ∃ files, oddDatabase.store (.atHome ["w"]) ⟨"db.json"⟩ = .ok files ∧
        load files ⟨"db.json"⟩ = .ok oddDatabase := by
  have reachable : oddDatabase.Reachable := .addArguments ["-I.."] (.upsert .empty (by decide))
  obtain ⟨parsed, loaded⟩ := ofJson_toJson reachable
  have writable : (oddDatabase.store (.atHome ["w"]) ⟨"db.json"⟩).isOk = true := by decide +kernel
  have vacant : (FileTree.atHome ["w"]).look ⟨"db.json"⟩ = .error .missing := rfl
  cases stored : oddDatabase.store (.atHome ["w"]) ⟨"db.json"⟩ with
  | error e => simp [stored, Except.isOk, Except.toBool] at writable
  | ok files =>
    refine ⟨reachable, parsed, files, rfl, ?_⟩
    rcases loaded _ files ⟨"db.json"⟩ stored with ⟨d, there⟩ | same
    · simp [vacant] at there
    · exact same

end CompileDb.Database
