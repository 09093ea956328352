import CompileDb.Database

/-!
# Normal forms are final

The normal form of a path is written out of components that are read back from it, and no `..` in it takes anything
back. So it is its own normal form, and two normal forms are the same path only if they are the same text.
-/

namespace CompileDb

namespace Path

/-! ## Components and their texts -/

/-- No piece between separators has a separator in it. -/
theorem notMem_of_mem_splitOn {separator : Char} {text piece : List Char} (mem : piece ∈ text.splitOn separator) :
    separator ∉ piece := by
  induction h : text.length using Nat.strongRecOn generalizing text with
  | ind n ih =>
    by_cases has : separator ∈ text
    · obtain ⟨front, rest, rfl, free⟩ := List.eq_append_cons_of_mem has
      rw [List.splitOn_append_cons_self_of_not_mem free] at mem
      rcases List.mem_cons.mp mem with rfl | mem
      · exact free
      · exact ih rest.length (by simp at h; omega) mem rfl
    · rw [List.splitOn_eq_singleton has] at mem
      rw [List.mem_singleton.mp mem]
      exact has

namespace Component

/-- A component is written as the piece it was read from. -/
theorem text_of_ofPiece? {piece : List Char} {c : Component} (read : ofPiece? piece = some c) :
    c.text.toList = piece := by
  unfold ofPiece? at read
  split at read
  case h_1 => contradiction
  case h_2 => contradiction
  case h_3 => cases read; rfl
  case h_4 => cases read; exact String.toList_ofList

/-- A component that is read back from its own text: a name or `..`. -/
def Readable (c : Component) : Prop :=
  '/' ∉ c.text.toList ∧ ofPiece? c.text.toList = some c

/-- A piece between two slashes is read as a component that can be read again. -/
theorem readable_of_ofPiece? {piece : List Char} {c : Component} (plain : '/' ∉ piece)
    (read : ofPiece? piece = some c) : c.Readable := by
  have text := text_of_ofPiece? read
  constructor
  · rw [text]
    exact plain
  · rw [text]
    exact read

theorem Readable.up : Readable .up := by
  constructor
  · decide
  · rfl

theorem Readable.ne_nil {c : Component} (readable : c.Readable) : c.text.toList ≠ [] := by
  intro nothing
  have read := readable.2
  rw [nothing] at read
  contradiction

/-- A piece of a text between slashes stands for a readable component, if for any. -/
theorem readable_of_mem_pieces {text : List Char} {pieces : List (List Char)} (among : pieces ⊆ text.splitOn '/')
    {c : Component} (mem : c ∈ pieces.filterMap ofPiece?) : c.Readable := by
  obtain ⟨piece, inside, read⟩ := List.mem_filterMap.mp mem
  exact readable_of_ofPiece? (notMem_of_mem_splitOn (among inside)) read

end Component

/-- What a text stands for: readable components, behind the root or a `.` or nothing. -/
theorem componentsOf_shape (chars : List Char) :
    ∃ cs : List Component, (∀ c ∈ cs, c.Readable) ∧
      (componentsOf chars = .root :: cs ∨ componentsOf chars = .here :: cs ∨ componentsOf chars = cs) := by
  unfold componentsOf
  split
  case h_1 rest =>
    exact ⟨_, fun c mem => Component.readable_of_mem_pieces (List.Subset.refl _) mem, .inl rfl⟩
  case h_2 =>
    split
    case h_1 pieces split =>
      have among : pieces ⊆ chars.splitOn '/' := by
        rw [split]
        exact List.subset_cons_self _ _
      exact ⟨_, fun c mem => Component.readable_of_mem_pieces among mem, .inr (.inl rfl)⟩
    case h_2 => exact ⟨_, fun c mem => Component.readable_of_mem_pieces (List.Subset.refl _) mem, .inr (.inr rfl)⟩

/-- Readable components are read back from what they are written as. -/
theorem filterMap_ofPiece?_texts {cs : List Component} (readable : ∀ c ∈ cs, c.Readable) :
    (cs.map (·.text.toList)).filterMap Component.ofPiece? = cs := by
  induction cs with
  | nil => rfl
  | cons c cs ih =>
    have first := (readable c List.mem_cons_self).2
    rw [List.map_cons, List.filterMap_cons_some first, ih fun d mem => readable d (List.mem_cons_of_mem c mem)]

/-- Readable components stand between the slashes of what is written of them. -/
theorem splitOn_intercalate_texts {cs : List Component} (readable : ∀ c ∈ cs, c.Readable) (filled : cs ≠ []) :
    ("/".intercalate (cs.map Component.text)).toList.splitOn '/' = cs.map (·.text.toList) := by
  have plain : ∀ piece ∈ cs.map (·.text.toList), '/' ∉ piece := by
    rw [List.forall_mem_map]
    exact fun c mem => (readable c mem).1
  rw [String.toList_intercalate, List.map_map]
  exact List.splitOn_intercalate '/' plain (by simpa using filled)

/-- Readable components are read back behind the root. -/
theorem components_ofComponents_root {cs : List Component} (readable : ∀ c ∈ cs, c.Readable) :
    (ofComponents (.root :: cs)).components = .root :: cs := by
  have text : (ofComponents (.root :: cs)).text.toList = '/' :: ("/".intercalate (cs.map Component.text)).toList := by
    simp [ofComponents]
  rw [components, text, componentsOf]
  by_cases empty : cs = []
  · rw [empty]
    rfl
  · rw [splitOn_intercalate_texts readable empty, filterMap_ofPiece?_texts readable]

/-- A text that begins with neither a slash nor a `.` piece stands for its pieces. -/
theorem componentsOf_of_splitOn {chars piece : List Char} {pieces : List (List Char)}
    (split : chars.splitOn '/' = piece :: pieces) (filled : piece ≠ []) (named : piece ≠ ['.']) :
    componentsOf chars = (piece :: pieces).filterMap Component.ofPiece? := by
  unfold componentsOf
  split
  case h_1 rest =>
    rw [← List.nil_append ('/' :: rest), List.splitOn_append_cons_self_of_not_mem List.not_mem_nil,
      List.cons.injEq] at split
    exact absurd split.1.symm filled
  case h_2 =>
    rw [split]
    split
    case h_1 dot => exact absurd (List.cons.inj dot).1 named
    case h_2 => rfl

/-- Readable components are read back as a relative path. -/
theorem components_ofComponents {cs : List Component} (readable : ∀ c ∈ cs, c.Readable) :
    (ofComponents cs).components = cs := by
  cases cs with
  | nil => rfl
  | cons c cs =>
    have first := readable c List.mem_cons_self
    have relative : ofComponents (c :: cs) = ⟨"/".intercalate ((c :: cs).map Component.text)⟩ := by
      unfold ofComponents
      split
      case h_1 root =>
        rw [(List.cons.inj root).1] at first
        exact absurd first.2 (by decide)
      case h_2 => rfl
    have named : c.text.toList ≠ ['.'] := by
      intro dot
      have read := first.2
      rw [dot] at read
      contradiction
    rw [relative, components,
      componentsOf_of_splitOn (splitOn_intercalate_texts readable (List.cons_ne_nil c cs)) first.ne_nil named]
    exact filterMap_ofPiece?_texts readable

/-! ## Reduced components -/

/-- Components of which none takes another one back, last one first: names behind the root or behind `..`. -/
inductive Reduced : List Component → Prop where
  | nil : Reduced []
  | root : Reduced [.root]
  | up {seen : List Component} : Reduced seen → (∀ c ∈ seen, c = .up) → Reduced (.up :: seen)
  | name {seen : List Component} {n : String} : Reduced seen → (Component.name n).Readable → Reduced (.name n :: seen)

/-- One more component keeps what has been read reduced. -/
theorem Reduced.foldComponent {seen : List Component} (reduced : Reduced seen) {c : Component}
    (readable : c.Readable) : Reduced (foldComponent seen c) := by
  cases c with
  | root => exact absurd readable.2 (by decide)
  | here => exact reduced
  | name n => exact .name reduced readable
  | up =>
    cases reduced with
    | nil => exact .up .nil (List.forall_mem_nil _)
    | root => exact .root
    | up below ups => exact .up (.up below ups) (List.forall_mem_cons.mpr ⟨rfl, ups⟩)
    | name outer => exact outer

/-- Folding keeps every step up in front of every name. -/
theorem Reduced.foldl_foldComponent {seen cs : List Component} (reduced : Reduced seen)
    (readable : ∀ c ∈ cs, c.Readable) : Reduced (cs.foldl Path.foldComponent seen) := by
  induction cs generalizing seen with
  | nil => exact reduced
  | cons c cs ih =>
    exact ih (reduced.foldComponent (readable c List.mem_cons_self))
      fun d mem => readable d (List.mem_cons_of_mem c mem)

/-- What is read of a path is reduced. -/
theorem reduced_components (p : Path) : Reduced (p.components.foldl foldComponent []) := by
  obtain ⟨cs, readable, shape⟩ := componentsOf_shape p.text.toList
  rcases shape with root | here | plain
  · rw [components, root]
    exact Reduced.root.foldl_foldComponent readable
  · rw [components, here]
    exact @Reduced.foldl_foldComponent [] cs .nil readable
  · rw [components, plain]
    exact Reduced.nil.foldl_foldComponent readable

/-- Reading reduced components takes nothing back. -/
theorem Reduced.foldl_reverse {seen : List Component} (reduced : Reduced seen) :
    seen.reverse.foldl Path.foldComponent [] = seen := by
  induction reduced with
  | nil => rfl
  | root => rfl
  | @up seen _ ups ih =>
    rw [List.reverse_cons, List.foldl_append, ih]
    cases seen with
    | nil => rfl
    | cons c seen =>
      rw [ups c List.mem_cons_self]
      rfl
  | name _ _ ih =>
    rw [List.reverse_cons, List.foldl_append, ih]
    rfl

/-- Reduced components are readable, except for the root in front of them. -/
theorem Reduced.shape {seen : List Component} (reduced : Reduced seen) :
    ∃ cs : List Component, (∀ c ∈ cs, c.Readable) ∧ (seen.reverse = .root :: cs ∨ seen.reverse = cs) := by
  induction reduced with
  | nil => exact ⟨[], List.forall_mem_nil _, .inr rfl⟩
  | root => exact ⟨[], List.forall_mem_nil _, .inl rfl⟩
  | @up seen _ ups _ =>
    refine ⟨(.up :: seen).reverse, ?_, .inr rfl⟩
    intro c mem
    rcases List.mem_cons.mp (List.mem_reverse.mp mem) with rfl | mem
    · exact Component.Readable.up
    · rw [ups c mem]
      exact Component.Readable.up
  | @name seen n _ readable ih =>
    obtain ⟨cs, all, shape⟩ := ih
    refine ⟨cs ++ [.name n], ?_, ?_⟩
    · intro c mem
      rcases List.mem_append.mp mem with mem | mem
      · exact all c mem
      · rw [List.mem_singleton.mp mem]
        exact readable
    · rw [List.reverse_cons]
      rcases shape with root | plain
      · exact .inl (by rw [root, List.cons_append])
      · exact .inr (by rw [plain])

/-! ## Normal forms -/

/-- A normal form has just the components that it is written from. -/
theorem components_normalize (p : Path) : p.normalize.components = normalComponents p.components := by
  obtain ⟨cs, readable, shape⟩ := (reduced_components p).shape
  rw [normalize, normalComponents]
  rcases shape with root | plain
  · rw [root, components_ofComponents_root readable]
  · rw [plain, components_ofComponents readable]

/-- The normal form of a normal form is that form. -/
theorem normalize_normalize (p : Path) : p.normalize.normalize = p.normalize := by
  have final : normalComponents (normalComponents p.components) = normalComponents p.components := by
    rw [normalComponents, normalComponents, (reduced_components p).foldl_reverse]
  rw [normalize, components_normalize, final]
  rfl

/-- Two normal forms that are the same path are the same text. -/
theorem eq_of_same {p q : Path} (final : p.normalize = p) (final' : q.normalize = q) (same : p.Same q) : p = q := by
  have forms : p.normalize = q.normalize := by
    rw [normalize, same, normalize]
  rw [← final, forms, final']

end Path

/-- A key is a normal form. -/
theorem Command.normalize_key (c : Command) : c.key.normalize = c.key :=
  Path.normalize_normalize _

end CompileDb
