import CompileDb.Host.Machine
import Mathlib.Data.List.Basic

/-!
# Machines carry programs out

Whatever programs run on a machine, it goes on in the same way: time does not go back, what was written to a stream
stays written, and the numbers of processes, open files and pipes are told apart and never used again. A pipe holds no
more than it has room for. `Machine.step_onward` says so of one request, with one case for each kind of request, and
`Machine.run_onward` of a whole run. Whoever is ready first comes first (`Machine.isFirst_next?`), and a run stops only
when nobody is ready, so more steps only add to what is seen of it.
-/

namespace CompileDb.Host

/-- Everything has a number of its own, below the next one. -/
def Numbered (numbers : List Nat) (next : Nat) : Prop :=
  numbers.Nodup ∧ ∀ n ∈ numbers, n < next

namespace Numbered

variable {numbers numbers' : List Nat} {next : Nat}

/-- Numbers stay distinct and used when some of them go. -/
theorem of_sublist (h : Numbered numbers next) (sublist : numbers'.Sublist numbers) : Numbered numbers' next :=
  ⟨h.1.sublist sublist, fun n mem => h.2 n (sublist.subset mem)⟩

theorem succ (h : Numbered numbers next) : Numbered numbers (next + 1) :=
  ⟨h.1, fun n mem => Nat.lt_succ_of_lt (h.2 n mem)⟩

/-- The next number is unused, so a process may take it. -/
theorem cons (h : Numbered numbers next) : Numbered (next :: numbers) (next + 1) := by
  refine ⟨List.nodup_cons.2 ⟨fun mem => Nat.lt_irrefl _ (h.2 _ mem), h.1⟩, fun n mem => ?_⟩
  rcases List.mem_cons.1 mem with rfl | mem
  · exact Nat.lt_succ_self n
  · exact h.succ.2 n mem

theorem concat (h : Numbered numbers next) : Numbered (numbers ++ [next]) (next + 1) :=
  ⟨(List.perm_append_singleton next numbers).nodup_iff.2 h.cons.1, fun n mem =>
    h.cons.2 n ((List.perm_append_singleton next numbers).mem_iff.1 mem)⟩

end Numbered

/-- The size of a pipe is that of what it holds, and it has room for that. -/
structure Pipe.Sound (pipe : Pipe) : Prop where
  size : pipe.size = pipe.bytes.length
  room : pipe.size ≤ pipeCapacity

namespace Machine

/-- Numbers tell everything apart, and pipes have room for what they hold. -/
structure Sound (m : Machine) : Prop where
  processes : Numbered (m.processes.map Process.number) m.nextNumber
  openings : Numbered (m.openings.map Opening.number) m.nextNumber
  pipes : Numbered (m.pipes.map Pipe.number) m.nextNumber
  sizes : ∀ pipe ∈ m.pipes, pipe.Sound

/-- What is true of a machine and of what it has become later. -/
structure Onward (m after : Machine) : Prop where
  time : m.time ≤ after.time
  output : m.output <:+ after.output
  nextNumber : m.nextNumber ≤ after.nextNumber
  first : after.first = m.first
  sound : m.Sound → after.Sound

variable {m after last : Machine}

theorem Onward.refl (m : Machine) : m.Onward m := ⟨Nat.le_refl _, List.suffix_rfl, Nat.le_refl _, rfl, id⟩

/-- Going on twice is going on. -/
theorem Onward.trans (h : m.Onward after) (h' : after.Onward last) : m.Onward last :=
  ⟨Nat.le_trans h.time h'.time, h.output.trans h'.output, Nat.le_trans h.nextNumber h'.nextNumber,
    h'.first.trans h.first, h'.sound ∘ h.sound⟩

/-! ## Small changes -/

theorem map_number {change : Process → Process} (keeps : ∀ q, (change q).number = q.number)
    (processes : List Process) : (processes.map change).map Process.number = processes.map Process.number := by
  rw [List.map_map]
  exact List.map_congr_left fun q _ => keeps q

theorem map_number_update (m : Machine) (p : Process) :
    (m.update p).processes.map Process.number = m.processes.map Process.number := by
  refine map_number (fun q => ?_) m.processes
  by_cases same : q.number = p.number <;> simp [same]

/-- A process that changes keeps its number. -/
theorem onward_update (m : Machine) (p : Process) : m.Onward (m.update p) :=
  ⟨Nat.le_refl _, List.suffix_rfl, Nat.le_refl _, rfl,
    fun h => ⟨(map_number_update m p).symm ▸ h.processes, h.openings, h.pipes, h.sizes⟩⟩

/-- Tidying removes only what nobody holds. -/
theorem onward_tidied (m : Machine) : m.Onward m.tidied :=
  ⟨Nat.le_refl _, List.suffix_rfl, Nat.le_refl _, rfl, fun h =>
    ⟨h.processes, h.openings.of_sublist (List.filter_sublist.map _), h.pipes.of_sublist (List.filter_sublist.map _),
      fun pipe mem => h.sizes pipe (List.mem_filter.1 mem).1⟩⟩

/-- Processes may change in any way but their numbers, and some may be gone. -/
theorem onward_processes {processes : List Process}
    (sublist : (processes.map Process.number).Sublist (m.processes.map Process.number)) :
    m.Onward { m with processes } :=
  ⟨Nat.le_refl _, List.suffix_rfl, Nat.le_refl _, rfl,
    fun h => ⟨h.processes.of_sublist sublist, h.openings, h.pipes, h.sizes⟩⟩

/-- The files play no part in a machine's soundness. -/
theorem onward_files (m : Machine) (files : FileTree) : m.Onward { m with files } :=
  ⟨Nat.le_refl _, List.suffix_rfl, Nat.le_refl _, rfl, fun h => ⟨h.processes, h.openings, h.pipes, h.sizes⟩⟩

theorem onward_updateOpening (m : Machine) (o : Opening) : m.Onward (m.updateOpening o) := by
  have numbers : (m.updateOpening o).openings.map Opening.number = m.openings.map Opening.number := by
    rw [updateOpening, List.map_map]
    refine List.map_congr_left fun q _ => ?_
    by_cases same : q.number = o.number <;> simp [same]
  exact ⟨Nat.le_refl _, List.suffix_rfl, Nat.le_refl _, rfl,
    fun h => ⟨h.processes, numbers.symm ▸ h.openings, h.pipes, h.sizes⟩⟩

/-- A pipe may change as long as it stays within its capacity. -/
theorem onward_updatePipe {pipe : Pipe} (sound : m.Sound → pipe.Sound) : m.Onward (m.updatePipe pipe) := by
  have numbers : (m.updatePipe pipe).pipes.map Pipe.number = m.pipes.map Pipe.number := by
    rw [updatePipe, List.map_map]
    refine List.map_congr_left fun q _ => ?_
    by_cases same : q.number = pipe.number <;> simp [same]
  refine ⟨Nat.le_refl _, List.suffix_rfl, Nat.le_refl _, rfl,
    fun h => ⟨h.processes, h.openings, numbers.symm ▸ h.pipes, fun q mem => ?_⟩⟩
  obtain ⟨old, stood, rfl⟩ := List.mem_map.1 mem
  split
  · exact sound h
  · exact h.sizes old stood

/-- A pipe that is not there holds nothing. -/
theorem Sound.pipe (h : m.Sound) (number : Nat) : (m.pipe number).Sound := by
  unfold Machine.pipe
  cases found : m.pipes.find? (·.number = number) with
  | none => exact ⟨rfl, Nat.zero_le _⟩
  | some pipe => exact h.sizes pipe (List.mem_of_find?_eq_some found)

/-! ## Ends and signals -/

/-- No end of a process makes two numbers the same. -/
theorem onward_finish (m : Machine) (p : Process) (exit : Run.ExitStatus) : m.Onward (m.finish p exit) := by
  unfold finish
  refine ((m.onward_update _).trans (onward_processes ?_)).trans (onward_tidied _)
  refine (List.filter_sublist.map _).trans ?_
  rw [map_number]
  intro q
  split
  · rfl
  · split <;> rfl

/-- A signal is passed over, changes the process it is for or ends it. -/
theorem onward_deliver (m : Machine) (p : Process) (signal : Nat) : m.Onward (m.deliver p signal) := by
  unfold deliver
  split
  · exact .refl m
  · split
    · exact .refl m
    · exact m.onward_update _
    · split
      · exact .refl m
      · exact m.onward_finish p _

/-! ## Files and pipes -/

/-- What is read of bytes stands at their front. -/
theorem part_prefix (amount : Amount) (bytes : List UInt8) : part amount bytes <+: bytes := by
  cases amount with
  | upTo n => exact List.take_prefix n bytes
  | available => exact List.prefix_rfl
  | line =>
    refine ⟨(bytes.dropWhile (· ≠ 10)).drop 1, ?_⟩
    rw [part, List.append_assoc, List.take_append_drop, List.takeWhile_append_dropWhile]

/-- What is read from a pipe stands at its front, and the rest stays. -/
theorem onward_readFrom (m : Machine) (o : Opening) (amount : Amount) : m.Onward (m.readFrom o amount).2 := by
  unfold readFrom
  split
  case h_1 =>
    split
    · exact m.onward_updateOpening _
    · exact .refl m
  case h_5 n _ =>
    refine onward_updatePipe fun h => ⟨?_, ?_⟩
    · simp [(h.pipe n).size]
    · exact Nat.le_trans (Nat.sub_le ..) (h.pipe n).room
  all_goals exact .refl m

/-- What is written out is added to what was. -/
theorem onward_writeTo (m : Machine) (o : Opening) (bytes : List UInt8) : m.Onward (m.writeTo o bytes).2 := by
  unfold writeTo
  split
  case h_1 =>
    split
    · exact (m.onward_files _).trans (onward_updateOpening _ _)
    · exact .refl m
  case h_2 => exact .refl m
  case h_3 s =>
    dsimp only
    split
    · exact .refl m
    · exact ⟨Nat.le_refl _, List.suffix_cons .., Nat.le_refl _, rfl,
        fun h => ⟨h.processes, h.openings, h.pipes, h.sizes⟩⟩
  case h_4 => exact .refl m

/-- A new descriptor is of an opening with the next number. -/
theorem onward_install (m : Machine) (p : Process) (source : Source) (access : Access) :
    m.Onward (m.install p source access).2.2 :=
  ⟨Nat.le_refl _, List.suffix_rfl, Nat.le_succ _, rfl,
    fun h => ⟨h.processes.succ, h.openings.cons, h.pipes.succ, h.sizes⟩⟩

theorem onward_addPipe (m : Machine) :
    m.Onward { m with pipes := ⟨m.nextNumber, [], 0⟩ :: m.pipes, nextNumber := m.nextNumber + 1 } :=
  ⟨Nat.le_refl _, List.suffix_rfl, Nat.le_succ _, rfl, fun h =>
    ⟨h.processes.succ, h.openings.succ, h.pipes.cons, List.forall_mem_cons.2 ⟨⟨rfl, Nat.zero_le _⟩, h.sizes⟩⟩⟩

/-- Opening a file adds one opening at most. -/
theorem onward_openFile (m : Machine) (p : Process) (path : String) (access : Access) :
    m.Onward (m.openFile p path access).2.2 := by
  unfold openFile
  split
  · exact .refl m
  · exact m.onward_install p _ access
  · exact (m.onward_files _).trans (onward_install _ p _ access)
  · split
    · exact .refl m
    · exact .refl m

/-! ## One request -/

/-- A write fills a pipe to its capacity at most, and the rest is put off. -/
theorem onward_answerWrite (m : Machine) (p : Process) (descriptor : Nat) (bytes : List UInt8)
    (next : Except Refusal Unit → Program) : m.Onward (m.answerWrite p descriptor bytes next) := by
  unfold answerWrite
  split
  case h_1 => exact m.onward_update _
  case h_2 o _ =>
    split
    · exact m.onward_update _
    · split
      case h_1 n _ =>
        split
        · split
          · exact m.onward_finish p _
          · exact m.onward_update _
        · have pipe : m.Sound → Pipe.Sound
              { m.pipe n with
                bytes := (m.pipe n).bytes ++ bytes.take (pipeCapacity - (m.pipe n).size)
                size := (m.pipe n).size + (bytes.take (pipeCapacity - (m.pipe n).size)).length } := by
            intro h
            obtain ⟨size, room⟩ := h.pipe n
            refine ⟨by simp [size], ?_⟩
            simp only [List.length_take]
            omega
          dsimp only
          split
          · exact (onward_updatePipe pipe).trans (onward_update _ _)
          · exact (onward_updatePipe pipe).trans (onward_update _ _)
      case h_2 => exact (m.onward_writeTo o bytes).trans (onward_update _ _)

/-- A process that was waited for is gone. -/
theorem onward_answerWait (m : Machine) (p : Process) (child : Option Nat) (next : Awaited → Program) :
    m.Onward (m.answerWait p child next) := by
  unfold answerWait
  split
  · split
    · exact (m.onward_update _).trans (onward_processes (List.filter_sublist.map _))
    · exact .refl m
  · exact m.onward_update _

/-- A forked process has the next number. -/
theorem onward_fork (m : Machine) (parent : Process) {child : Process} (new : child.number = m.nextNumber) :
    m.Onward { ({ m with nextNumber := m.nextNumber + 1 }.update parent) with
      processes := ({ m with nextNumber := m.nextNumber + 1 }.update parent).processes ++ [child] } := by
  refine ⟨Nat.le_refl _, List.suffix_rfl, Nat.le_succ _, rfl, fun h => ⟨?_, h.openings.succ, h.pipes.succ, h.sizes⟩⟩
  rw [List.map_append, map_number_update, List.map_singleton, new]
  exact h.processes.concat

/-- **One request leads onward**, whatever it is. -/
theorem step_onward (m : Machine) (p : Process) : m.Onward (m.step p) := by
  have now : m.Onward { m with time := max m.time p.readyAt } :=
    ⟨Nat.le_max_left .., List.suffix_rfl, Nat.le_refl _, rfl, fun h => ⟨h.processes, h.openings, h.pipes, h.sizes⟩⟩
  unfold step
  dsimp only
  split
  case h_1 => exact now.trans (onward_finish _ _ _)
  case h_2 =>
    split
    · exact now.trans (onward_update _ _)
    · split
      · exact now.trans (onward_update _ _)
      · exact now.trans ((onward_readFrom _ _ _).trans (onward_update _ _))
  case h_3 =>
    split
    · exact now.trans ((onward_updateOpening _ _).trans (onward_update _ _))
    · exact now.trans (onward_update _ _)
  case h_4 => exact now.trans (onward_answerWrite ..)
  case h_5 => exact now.trans ((onward_openFile ..).trans (onward_update _ _))
  case h_6 =>
    -- Both ends of the pipe and the pipe itself have numbers of their own.
    refine now.trans (Onward.trans ?_ (onward_update _ _))
    exact (onward_addPipe _).trans ((onward_install _ _ _ _).trans (onward_install _ _ _ _))
  case h_7 => exact now.trans ((onward_update _ _).trans (onward_tidied _))
  case h_8 => exact now.trans ((onward_files _ _).trans (onward_update _ _))
  case h_9 => exact now.trans (onward_update _ _)
  case h_10 => exact now.trans (onward_fork _ _ rfl)
  case h_11 => exact now.trans (onward_answerWait ..)
  case h_12 =>
    split
    · exact now.trans (onward_update _ _)
    · exact now.trans ((onward_update _ _).trans (onward_deliver _ _ _))
  all_goals exact now.trans (onward_update _ _)

/-! ## Who comes next -/

/-- The first process that is ready, among those before some point, if there is one. -/
def IsFirst (m : Machine) (seen : List Process) : Option Process → Prop
  | none => ∀ q ∈ seen, m.isReady q = false
  | some p => p ∈ seen ∧ m.isReady p = true ∧ ∀ q ∈ seen, m.isReady q = true → p.readyAt ≤ q.readyAt

/-- One more process takes the place of the first one if it is ready earlier. -/
theorem IsFirst.concat {seen : List Process} {best : Option Process} (h : m.IsFirst seen best) (p : Process) :
    m.IsFirst (seen ++ [p]) (m.sooner best p) := by
  have last : p ∈ seen ++ [p] := List.mem_append_right _ (List.mem_singleton_self p)
  have cover {P : Process → Prop} (before : ∀ q ∈ seen, P q) (new : P p) : ∀ q ∈ seen ++ [p], P q := by
    intro q mem
    rcases List.mem_append.1 mem with mem | mem
    · exact before q mem
    · exact List.mem_singleton.1 mem ▸ new
  unfold sooner
  by_cases ready : m.isReady p = true
  · rw [if_pos ready]
    cases best with
    | none => exact ⟨last, ready, cover (fun q mem isReady => by simp [h q mem] at isReady) fun _ => Nat.le_refl _⟩
    | some q =>
      obtain ⟨mem, isReady, least⟩ := h
      dsimp only
      split
      case isTrue earlier =>
        refine ⟨last, ready, cover (fun r mem isReady => ?_) fun _ => Nat.le_refl _⟩
        exact Nat.le_trans (Nat.le_of_lt earlier) (least r mem isReady)
      case isFalse later =>
        exact ⟨List.mem_append_left _ mem, isReady, cover least fun _ => Nat.le_of_not_lt later⟩
  · rw [if_neg ready]
    cases best with
    | none => exact cover h (by simpa using ready)
    | some q =>
      obtain ⟨mem, isReady, least⟩ := h
      exact ⟨List.mem_append_left _ mem, isReady, cover least fun isReady => absurd isReady ready⟩

/-- **Whoever is ready first comes first**, and nobody comes only if nobody is ready. -/
theorem isFirst_next? (m : Machine) : m.IsFirst m.processes m.next? := by
  have all : ∀ (rest seen : List Process) (best : Option Process), m.IsFirst seen best →
      m.IsFirst (seen ++ rest) (rest.foldl m.sooner best) := by
    intro rest
    induction rest with
    | nil =>
      intro seen best h
      rwa [List.append_nil]
    | cons p rest ih =>
      intro seen best h
      have later := ih (seen ++ [p]) _ (h.concat p)
      rwa [List.append_assoc] at later
  exact all m.processes [] none (List.forall_mem_nil _)

/-! ## Runs -/

/-- **Every run leads onward**, whatever the programs do. -/
theorem run_onward (fuel : Nat) (m : Machine) : m.Onward (run fuel m) := by
  induction fuel generalizing m with
  | zero => exact .refl m
  | succ fuel ih =>
    rw [run]
    split
    · exact .refl m
    · exact (m.step_onward _).trans (ih _)

/-- A run of `fuel + more` steps is one of `fuel` continued for `more`. -/
theorem run_add (fuel more : Nat) (m : Machine) : run (fuel + more) m = run more (run fuel m) := by
  induction fuel generalizing m with
  | zero => rw [Nat.zero_add, run]
  | succ fuel ih =>
    rw [Nat.succ_add, run, run]
    split
    case h_1 idle =>
      cases more with
      | zero => rfl
      | succ more => rw [run, idle]
    case h_2 => exact ih _

/-- **Carrying a program out longer only adds to what is seen of it.** -/
theorem output_prefix {fuel fuel' : Nat} (le : fuel ≤ fuel') (m : Machine) :
    (run fuel m).output.reverse <+: (run fuel' m).output.reverse := by
  obtain ⟨more, rfl⟩ := Nat.exists_eq_add_of_le le
  rw [run_add, List.reverse_prefix]
  exact (run_onward more _).output

/-- Once nobody is ready, nothing changes any more. -/
theorem run_of_idle {m : Machine} (idle : ∀ q ∈ m.processes, m.isReady q = false) (fuel : Nat) : run fuel m = m := by
  cases fuel with
  | zero => rfl
  | succ fuel =>
    have nobody : m.next? = none := by
      have first := m.isFirst_next?
      cases next : m.next? with
      | none => rfl
      | some p =>
        rw [next] at first
        exact absurd first.2.1 (by simp [idle p first.1])
    rw [run, nobody]

/-- A machine begins with one process and no pipes. -/
theorem sound_start (files : FileTree) (program : Program) : (start files program).Sound where
  processes := by simp [Numbered, start]
  openings := by simp [Numbered, start]
  pipes := by simp [Numbered, start]
  sizes := List.forall_mem_nil _

/-- However long a started program is carried out, its machine is sound. -/
theorem sound_run_start (files : FileTree) (program : Program) (fuel : Nat) : (run fuel (start files program)).Sound :=
  (run_onward fuel _).sound (sound_start files program)

end Machine

end CompileDb.Host
