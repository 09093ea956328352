import CompileDb.FileTree

/-!
# Written files

After a file is written its path leads to it, and it holds what was written. Nothing else has changed.
-/

namespace CompileDb.FileTree

variable {t t' : FileTree} {trail : Trail}

/-! ## Putting a node -/

/-- Putting a node changes no other place. -/
theorem node?_put_of_ne {other : Trail} (ne : other ≠ trail) (node : Node) :
    (t.put trail node).node? other = t.node? other := by
  have skip : ∀ entry : Trail × Node, (entry.1 ≠ trail ∧ entry.1 = other) ↔ entry.1 = other :=
    fun entry => ⟨And.right, fun same => ⟨same ▸ ne, same⟩⟩
  simp [node?, put, ne.symm, List.find?_filter, skip]

/-- The root and the directories that lead home are directories and stay so. -/
theorem node?_put {node : Node} (free : t.node? trail ≠ some .directory) :
    (t.put trail node).node? trail = some node := by
  have away : trail.isSuffixOf t.home = false := by
    cases towards : trail.isSuffixOf t.home with
    | false => rfl
    | true => exact absurd (by simp [node?, towards]) free
  simp [node?, put, away]

/-- Only the last node put at the end of a trail counts. -/
theorem put_put (t : FileTree) (trail : Trail) (node last : Node) :
    (t.put trail node).put trail last = t.put trail last := by
  simp [put, List.filter_filter]

/-! ## Ways that stay -/

/-- Every path that leads anywhere in `t` leads there in `t'`: its directories and its links are still there, and
nothing has become a link. -/
structure Keeps (t t' : FileTree) : Prop where
  home : t'.home = t.home
  directory : ∀ trail, t.node? trail = some .directory → t'.node? trail = some .directory
  link : ∀ trail target, t'.node? trail = some (.link target) ↔ t.node? trail = some (.link target)

theorem Keeps.step (keeps : Keeps t t') {c : Path.Component} {next : Trail} (ok : t.step trail c = .ok next) :
    t'.step trail c = .ok next := by
  unfold FileTree.step at ok ⊢
  split at ok
  case h_1 => contradiction
  case h_2 found => rw [keeps.directory trail found]; exact ok
  case h_3 => contradiction

theorem Keeps.advance (keeps : Keeps t t') {through : Bool} {components : List Path.Component}
    {reached : Trail × Option (List Path.Component)} (ok : t.advance through trail components = .ok reached) :
    t'.advance through trail components = .ok reached := by
  induction components generalizing trail with
  | nil => exact ok
  | cons c rest ih =>
    unfold FileTree.advance at ok ⊢
    split at ok
    case h_1 => contradiction
    case h_2 next stepped =>
      rw [keeps.step stepped]
      simp only
      split at ok
      case h_1 target linked => rw [(keeps.link next target).mpr linked]; exact ok
      case h_2 unlinked =>
        split
        case h_1 target linked => exact absurd ((keeps.link next target).mp linked) (unlinked target)
        case h_2 => exact ih ok

/-- Links are followed to the same place. -/
theorem Keeps.follow (keeps : Keeps t t') {through : Bool} {links : Nat} {components : List Path.Component}
    {reached : Trail} (ok : t.follow through links trail components = .ok reached) :
    t'.follow through links trail components = .ok reached := by
  induction links generalizing trail components with
  | zero => contradiction
  | succ links ih =>
    unfold FileTree.follow at ok ⊢
    split at ok
    case h_1 => contradiction
    case h_2 arrived => rw [keeps.advance arrived]; exact ok
    case h_3 arrived => rw [keeps.advance arrived]; exact ih ok

/-- A path leads to where its components lead, if it is a path at all. -/
theorem locate_eq_ok {p : Path} {reached : Trail} :
    t.locate p = .ok reached ↔
      (p.text.isEmpty = false ∧ '\x00' ∉ p.text.toList ∧ p.text.utf8ByteSize < 4096) ∧
        t.follow true linkLimit t.home p.components = .ok reached := by
  unfold locate locateLink
  constructor
  · intro ok
    split at ok
    case isTrue => contradiction
    case isFalse solid =>
      split at ok
      case isTrue => contradiction
      case isFalse clean =>
        split at ok
        case isTrue => contradiction
        case isFalse short => exact ⟨⟨by simpa using solid, by simpa using clean, by omega⟩, ok⟩
  · rintro ⟨⟨solid, clean, short⟩, ok⟩
    rw [if_neg (by simp [solid]), if_neg (by simpa using clean), if_neg (by omega)]
    exact ok

/-- A path that was found is found at the same place. -/
theorem Keeps.locate (keeps : Keeps t t') {p : Path} {reached : Trail} (ok : t.locate p = .ok reached) :
    t'.locate p = .ok reached := by
  obtain ⟨proper, ok⟩ := locate_eq_ok.mp ok
  exact locate_eq_ok.mpr ⟨proper, keeps.home ▸ keeps.follow ok⟩

/-- Putting a file where no directory and no link is keeps all ways. -/
theorem keeps_put_file {bytes : List UInt8} {executable : Bool} (free : t.node? trail ≠ some .directory)
    (unlinked : ∀ target, t.node? trail ≠ some (.link target)) : Keeps t (t.put trail (.file bytes executable)) where
  home := rfl
  directory other found := by
    by_cases same : other = trail
    · exact absurd (same ▸ found) free
    · rw [node?_put_of_ne same, found]
  link other target := by
    by_cases same : other = trail
    · subst same
      simp [node?_put free, unlinked target]
    · rw [node?_put_of_ne same]

/-! ## Where paths end -/

theorem node?_home (t : FileTree) : t.node? t.home = some .directory := by
  simp [node?]

/-- Over all links, components never lead to a link. -/
theorem advance_unlinked {components : List Path.Component} {reached : Trail × Option (List Path.Component)}
    (unlinked : ∀ target, t.node? trail ≠ some (.link target)) (ok : t.advance true trail components = .ok reached) :
    ∀ target, t.node? reached.1 ≠ some (.link target) := by
  induction components generalizing trail with
  | nil => cases ok; exact unlinked
  | cons c rest ih =>
    unfold advance at ok
    split at ok
    case h_1 => contradiction
    case h_2 next stepped =>
      split at ok
      case h_1 => simp at ok; subst ok; exact unlinked
      case h_2 other => exact ih other ok

theorem follow_unlinked {links : Nat} {components : List Path.Component} {reached : Trail}
    (unlinked : ∀ target, t.node? trail ≠ some (.link target))
    (ok : t.follow true links trail components = .ok reached) : ∀ target, t.node? reached ≠ some (.link target) := by
  induction links generalizing trail components with
  | zero => contradiction
  | succ links ih =>
    unfold follow at ok
    split at ok
    case h_1 => contradiction
    case h_2 arrived => cases ok; exact advance_unlinked unlinked arrived
    case h_3 arrived => exact ih (advance_unlinked unlinked arrived) ok

/-- A path never leads to a link: it is followed further. -/
theorem locate_unlinked {p : Path} {reached : Trail} (ok : t.locate p = .ok reached) (target : String) :
    t.node? reached ≠ some (.link target) :=
  follow_unlinked (by simp [node?_home]) (locate_eq_ok.mp ok).2 target

/-! ## Writing -/

/-- A file is put where the path leads, or what is written disappears in a device. -/
theorem write_eq_ok {p : Path} {bytes : List UInt8} (ok : t.write p bytes = .ok t') :
    (t' = t ∧ ∃ d, t.look p = .ok (.device d)) ∨
      ∃ trail executable, t.locate p = .ok trail ∧ t.node? trail ≠ some .directory ∧ namesDirectory p = false ∧
        t' = t.put trail (.file bytes executable) := by
  unfold write at ok
  split at ok
  case h_1 => contradiction
  case h_2 trail located =>
    split at ok
    case isTrue => contradiction
    case isFalse named =>
      have file : ∀ executable, t.node? trail ≠ some .directory → t' = t.put trail (.file bytes executable) →
          ∃ trail executable, t.locate p = .ok trail ∧ t.node? trail ≠ some .directory ∧ namesDirectory p = false ∧
            t' = t.put trail (.file bytes executable) :=
        fun executable free written => ⟨trail, executable, located, free, by simpa using named, written⟩
      unfold writeAt at ok
      cases found : t.node? trail with
      | none =>
        simp only [found] at ok
        split at ok
        case h_1 => cases ok; exact .inr (file false (by simp [found]) rfl)
        case h_2 => contradiction
      | some node =>
        cases node with
        | file old executable => simp [found] at ok; exact .inr (file executable (by simp [found]) ok.symm)
        | directory => simp [found] at ok
        | link target => exact absurd found (locate_unlinked located target)
        | device d =>
          have there : t.look p = .ok (.device d) := by simp [look, located, found, named]
          refine .inl ⟨?_, d, there⟩
          cases d <;> simp [found] at ok
          case full =>
            split at ok
            case isTrue => cases ok; rfl
            case isFalse => contradiction
          all_goals exact ok.symm

/-- A written file is read as it was written. -/
theorem read_of_write {p : Path} {bytes : List UInt8} (ok : t.write p bytes = .ok t') :
    (∃ d, t.look p = .ok (.device d)) ∨ t'.read p = .ok bytes := by
  rcases write_eq_ok ok with ⟨-, device⟩ | ⟨trail, executable, located, free, named, rfl⟩
  · exact .inl device
  · right
    have keeps : Keeps t (t.put trail (.file bytes executable)) := keeps_put_file free (locate_unlinked located)
    have there := keeps.locate located
    simp [read, look, there, node?_put free, named]

/-- Writing the same bytes again changes nothing. -/
theorem write_again {p : Path} {bytes : List UInt8} (ok : t.write p bytes = .ok t') : t'.write p bytes = .ok t' := by
  rcases write_eq_ok ok with ⟨rfl, -⟩ | ⟨trail, executable, located, free, named, rfl⟩
  · exact ok
  · have keeps : Keeps t (t.put trail (.file bytes executable)) := keeps_put_file free (locate_unlinked located)
    have there := keeps.locate located
    simp [write, there, named, writeAt, node?_put free, put_put]

/-! ## Writing where there may be no room -/

variable {room : Option Nat} {p : Path} {bytes : List UInt8}

/-- What has been written without an obstacle has been written as a whole. -/
theorem write_of_writeWithin (ok : t.writeWithin room p bytes = (t', none)) : t.write p bytes = .ok t' := by
  unfold writeWithin at ok
  dsimp only at ok
  split at ok
  case h_1 => cases ok
  case h_2 after written =>
    split at ok
    case isTrue => cases ok
    case isFalse fits =>
      have whole : bytes.take (room.getD bytes.length) = bytes :=
        (List.take_prefix ..).eq_of_length_le (Nat.le_of_not_lt fits)
      rw [whole] at written
      cases ok
      exact written

/-- A path leads to the only file that may have changed, and if it has, it holds a beginning of what was to be
written. -/
theorem writeWithin_cases (t : FileTree) (room : Option Nat) (p : Path) (bytes : List UInt8) :
    (t.writeWithin room p bytes).1 = t ∨
      ∃ trail kept executable, t.locate p = .ok trail ∧ kept <+: bytes ∧
        (t.writeWithin room p bytes).1 = t.put trail (.file kept executable) := by
  unfold writeWithin
  dsimp only
  split
  case h_1 => exact .inl rfl
  case h_2 after written =>
    rcases write_eq_ok written with ⟨rfl, -⟩ | ⟨trail, executable, located, -, -, rfl⟩
    · exact .inl rfl
    · exact .inr ⟨trail, _, executable, located, List.take_prefix .., rfl⟩

/-- Nothing has changed but what the path leads to. -/
def Spares (t t' : FileTree) (p : Path) : Prop :=
  t'.home = t.home ∧ ∀ trail, t.locate p ≠ .ok trail → t'.node? trail = t.node? trail

theorem Spares.refl (t : FileTree) (p : Path) : Spares t t p := ⟨rfl, fun _ _ => rfl⟩

/-- A write spares every file but its own, also when it fails half way. -/
theorem spares_writeWithin (t : FileTree) (room : Option Nat) (p : Path) (bytes : List UInt8) :
    Spares t (t.writeWithin room p bytes).1 p := by
  rcases t.writeWithin_cases room p bytes with same | ⟨trail, kept, executable, located, -, after⟩
  · rw [same]
    exact .refl t p
  · rw [after]
    refine ⟨rfl, fun other elsewhere => node?_put_of_ne ?_ _⟩
    rintro rfl
    exact elsewhere located

end CompileDb.FileTree
