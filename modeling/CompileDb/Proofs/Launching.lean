import CompileDb.Launch
import CompileDb.Proofs.Encoding
import Mathlib.Data.List.Basic

/-!
# How programs are found

A program is looked up in one file after the other: the first that has one counts, if those before it let the search go
on (`Host.firstProgram_eq_ok_iff`). The file of an installed program names it, and no text is such a file
(`FileTree.programName?_mark`, `FileTree.programName?_encode`), so what is loaded from the file is the program of
that name (`Installed.load_programFile`). Names and arguments reach a program as they are (`Text.ofOctets_octets`).
-/

namespace CompileDb

/-! ## Texts as programs see them -/

namespace Text

/-- Bytes survive being written as characters. -/
theorem narrow_widen (bytes : List UInt8) : narrow (widen bytes) = bytes := by
  rw [narrow, widen, List.map_map]
  refine List.map_id'' (fun b => ?_) bytes
  have small : b.toNat < 256 := b.toNat_lt
  have valid : b.toNat.isValidChar := .inl (by omega)
  have number : (Char.ofNat b.toNat).toNat = b.toNat := by
    rw [Char.ofNat, dif_pos valid]
    rfl
  exact (congrArg Nat.toUInt8 number).trans UInt8.ofNat_toNat

/-- **A text reaches a program and comes back as it was.** -/
theorem ofOctets_octets (text : String) : ofOctets (octets text) = text := by
  rw [ofOctets, octets, String.toList_ofList, narrow_widen, decodeLossy_encode]

/-- No byte of a text is 255. -/
theorem ne_of_mem_encode {text : String} {b : UInt8} (mem : b ∈ encode text) : b ≠ 255 := by
  obtain ⟨c, -, mem⟩ := List.mem_flatMap.1 mem
  have valid := toNat_valid c
  have below {n : Nat} (lt : n < 255) : n.toUInt8 ≠ 255 := by
    intro same
    have value := congrArg UInt8.toNat same
    rw [Nat.toUInt8, UInt8.toNat_ofNat', Nat.mod_eq_of_lt (by omega)] at value
    exact Nat.ne_of_lt lt value
  unfold encodeChar at mem
  dsimp only at mem
  split at mem
  · simp only [List.mem_singleton] at mem
    exact mem ▸ below (by omega)
  · split at mem
    · simp only [List.mem_cons, List.not_mem_nil, or_false] at mem
      rcases mem with rfl | rfl <;> exact below (by omega)
    · split at mem
      · simp only [List.mem_cons, List.not_mem_nil, or_false] at mem
        rcases mem with rfl | rfl | rfl <;> exact below (by omega)
      · simp only [List.mem_cons, List.not_mem_nil, or_false] at mem
        rcases mem with rfl | rfl | rfl | rfl <;> exact below (by omega)

end Text

/-! ## Searching -/

namespace Host

variable {load : Loader} {files : FileTree} {inv : Invocation} {paths : List String} {p : Program}

/-- A file refuses to be the program, and the search goes on. -/
def Refuses (load : Loader) (files : FileTree) (inv : Invocation) (path : String) : Prop :=
  ∃ r, load files (Text.ofOctets path) inv = .error r ∧ r.isPassed = true

/-- One of the files has a program, and the search goes on at all files before it. -/
def Finds (load : Loader) (files : FileTree) (inv : Invocation) (p : Program) (paths : List String) : Prop :=
  ∃ before path after, paths = before ++ path :: after ∧ (∀ other ∈ before, Refuses load files inv other) ∧
    load files (Text.ofOctets path) inv = .ok p

/-- A program is found at the first place, or behind a place that refuses. -/
theorem finds_cons {path : String} : Finds load files inv p (path :: paths) ↔
    load files (Text.ofOctets path) inv = .ok p ∨ Refuses load files inv path ∧ Finds load files inv p paths := by
  constructor
  · rintro ⟨before, other, after, split, refuses, there⟩
    cases before with
    | nil =>
      obtain ⟨rfl, -⟩ := List.cons.inj split
      exact .inl there
    | cons first before =>
      obtain ⟨rfl, rest⟩ := List.cons.inj split
      obtain ⟨refuses, others⟩ := List.forall_mem_cons.1 refuses
      exact .inr ⟨refuses, before, other, after, rest, others, there⟩
  · rintro (there | ⟨refuses, before, other, after, rfl, others, there⟩)
    · exact ⟨[], path, paths, rfl, List.forall_mem_nil _, there⟩
    · exact ⟨path :: before, other, after, rfl, List.forall_mem_cons.2 ⟨refuses, others⟩, there⟩

/-- **The first file that has a program counts**, if the search goes on at all files before it. -/
theorem firstProgram_eq_ok_iff {denied : Bool} :
    firstProgram load files inv denied paths = .ok p ↔ Finds load files inv p paths := by
  induction paths generalizing denied with
  | nil => simp [firstProgram, Finds]
  | cons path paths ih =>
    rw [firstProgram, finds_cons]
    cases loaded : load files (Text.ofOctets path) inv with
    | ok q => simp [Refuses, loaded]
    | error r => cases passed : r.isPassed <;> simp [Refuses, loaded, passed, ih]

end Host

/-! ## Installed programs -/

namespace FileTree

/-- A file that names a program of the host is recognised by its mark. -/
theorem programName?_mark (name : String) : programName? (programMark ++ Text.encode name) = some name := by
  simp [programName?, Text.decodeLossy_encode]

/-- No text is taken for an installed program. -/
theorem programName?_encode (text : String) : programName? (Text.encode text) = none := by
  rw [programName?, if_neg]
  intro marked
  obtain ⟨rest, split⟩ := List.isPrefixOf_iff_prefix.1 marked
  have mem : (255 : UInt8) ∈ Text.encode text := by
    rw [← split]
    exact List.mem_append_left _ (by decide)
  exact Text.ne_of_mem_encode mem rfl

end FileTree

namespace Installed

open Host

/-- Exactly the installed names have programs. -/
theorem isSome_program?_iff (load : Loader) (name : String) (inv : Invocation) :
    (program? load name inv).isSome = true ↔ name ∈ names := by
  have listed {α : Type} (table : List (String × α)) : (table.lookup name).isSome = true ↔ name ∈ table.map Prod.fst := by
    rw [List.lookup_isSome_iff, List.mem_map]
    simp only [beq_iff_eq, eq_comm (a := name)]
  rw [program?, names, List.mem_append, List.mem_append, ← listed, ← listed]
  by_cases shell : name ∈ shells
  · simp [shell]
  · rw [if_neg (by simpa using shell)]
    cases plainUtilities.lookup name <;> cases callingUtilities.lookup name <;> simp [shell]

/-- **From the file of an installed program comes the program of that name.** -/
theorem load_programFile {files : FileTree} {path name : String} (inv : Invocation) (depth : Nat)
    (there : files.look ⟨path⟩ = .ok (FileTree.programFile name)) (installed : name ∈ names) :
    (load (depth + 1) files path inv).toOption = program? (load depth) name inv := by
  have program := (isSome_program?_iff (load depth) name inv).2 installed
  rw [load, there]
  simp only [FileTree.programFile, FileTree.programName?_mark]
  cases known : program? (load depth) name inv with
  | none => rw [known] at program; cases program
  | some p => rfl

end Installed

end CompileDb
