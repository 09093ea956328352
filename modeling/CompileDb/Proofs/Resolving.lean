import CompileDb.Proofs.NormalForm

/-!
# Where paths lead

Walking a path from an absolute directory leads to another one, if no link on the way is followed. A normal form leads
to where the path leads of which it is the form, and two normal forms that lead to the same place from everywhere are
the same text. So the key of a command stands for the file, however directory and file are spelled, and for no other.
-/

namespace CompileDb

namespace Path

/-- The names of a directory after one more component. A `..` stays at the root. -/
def Component.walk (names : List String) : Component → List String
  | .root => []
  | .here => names
  | .up => names.dropLast
  | .name n => names ++ [n]

theorem readable_of_mem_components {p : Path} {n : String} (mem : .name n ∈ p.components) :
    (Component.name n).Readable := by
  obtain ⟨cs, readable, shape⟩ := componentsOf_shape p.text.toList
  rw [components] at mem
  rcases shape with root | here | plain
  · rw [root] at mem
    exact readable _ ((List.mem_cons.mp mem).resolve_left (by simp))
  · rw [here] at mem
    exact readable _ ((List.mem_cons.mp mem).resolve_left (by simp))
  · rw [plain] at mem
    exact readable _ mem

/-- Every name that a walk leads to was there before or is one of the path. -/
theorem mem_foldl_walk {cs : List Component} {names : List String} {n : String}
    (mem : n ∈ cs.foldl Component.walk names) : n ∈ names ∨ .name n ∈ cs := by
  induction cs generalizing names with
  | nil => exact .inl mem
  | cons c cs ih =>
    rcases ih mem with old | new
    · cases c with
      | root => exact absurd old List.not_mem_nil
      | here => exact .inl old
      | up => exact .inl (List.dropLast_subset names old)
      | name m =>
        rcases List.mem_append.mp old with old | last
        · exact .inl old
        · rw [List.mem_singleton.mp last]
          exact .inr List.mem_cons_self
    · exact .inr (List.mem_cons_of_mem c new)

end Path

/-- An absolute directory: the names on the way to it from the root. -/
@[ext] structure Location where
  names : List String
  readable : ∀ n ∈ names, (Path.Component.name n).Readable

namespace Location

open CompileDb.Path

/-- Where a path leads from here. -/
def resolve (here : Location) (p : Path) : Location where
  names := p.components.foldl Component.walk here.names
  readable n mem := (mem_foldl_walk mem).elim (here.readable n) readable_of_mem_components

/-- Resolving a path walks its components from where one stands. -/
theorem names_resolve (here : Location) (p : Path) :
    (here.resolve p).names = p.components.foldl Component.walk here.names := rfl

/-- The directory so many levels below the root that has the same name at each of them. -/
def deep (level : Nat) (n : String) (readable : (Component.name n).Readable) : Location where
  names := List.replicate level n
  readable m mem := by
    rw [List.eq_of_mem_replicate mem]
    exact readable

end Location

namespace Path

/-! ## Normal forms lead to the same place -/

theorem foldl_walk_reverse_cons (names : List String) (c : Component) (seen : List Component) :
    (c :: seen).reverse.foldl Component.walk names = Component.walk (seen.reverse.foldl Component.walk names) c := by
  rw [List.reverse_cons, List.foldl_append]
  rfl

/-- What is read of a path walks on with one more component as the path does. -/
theorem foldl_walk_foldComponent (names : List String) (seen : List Component) (c : Component) :
    (foldComponent seen c).reverse.foldl Component.walk names =
      Component.walk (seen.reverse.foldl Component.walk names) c := by
  cases c with
  | here => rfl
  | root => exact foldl_walk_reverse_cons names .root seen
  | name n => exact foldl_walk_reverse_cons names (.name n) seen
  | up =>
    cases seen with
    | nil => rfl
    | cons last outer =>
      cases last with
      | name n =>
        rw [foldl_walk_reverse_cons]
        exact List.dropLast_concat.symm
      | root =>
        rw [foldl_walk_reverse_cons]
        exact foldl_walk_reverse_cons names .root outer
      | here => exact foldl_walk_reverse_cons names .up (.here :: outer)
      | up => exact foldl_walk_reverse_cons names .up (.up :: outer)

/-- Folding the components first does not change where the walk ends. -/
theorem foldl_walk_foldl_foldComponent (names : List String) (seen cs : List Component) :
    (cs.foldl foldComponent seen).reverse.foldl Component.walk names =
      cs.foldl Component.walk (seen.reverse.foldl Component.walk names) := by
  induction cs generalizing seen with
  | nil => rfl
  | cons c cs ih => rw [List.foldl_cons, List.foldl_cons, ih, foldl_walk_foldComponent]

/-- The components of the normal form walk as those of the path do. -/
theorem foldl_walk_normalComponents (names : List String) (cs : List Component) :
    (normalComponents cs).foldl Component.walk names = cs.foldl Component.walk names :=
  foldl_walk_foldl_foldComponent names [] cs

/-! ## Normal forms that lead to the same place everywhere -/

/-- Reduced components are names behind the root, or names behind some `..`. -/
theorem Reduced.split {seen : List Component} (reduced : Reduced seen) :
    (∃ names : List String, seen.reverse = .root :: names.map .name) ∨
      ∃ (ups : Nat) (names : List String), seen.reverse = List.replicate ups .up ++ names.map .name := by
  induction reduced with
  | nil => exact .inr ⟨0, [], rfl⟩
  | root => exact .inl ⟨[], rfl⟩
  | @up seen _ ups _ =>
    refine .inr ⟨seen.length + 1, [], ?_⟩
    rw [List.eq_replicate_of_mem ups, List.length_replicate, ← List.replicate_succ, List.reverse_replicate]
    rw [List.map_nil, List.append_nil]
  | @name seen n _ _ ih =>
    rw [List.reverse_cons]
    rcases ih with ⟨names, shape⟩ | ⟨ups, names, shape⟩
    · exact .inl ⟨names ++ [n], by rw [shape, List.map_append, List.cons_append, List.map_singleton]⟩
    · exact .inr ⟨ups, names ++ [n], by rw [shape, List.map_append, List.append_assoc, List.map_singleton]⟩

/-- Names lead further down. -/
theorem foldl_walk_names (outer names : List String) :
    (names.map Component.name).foldl Component.walk outer = outer ++ names := by
  induction names generalizing outer with
  | nil => exact (List.append_nil outer).symm
  | cons n names ih =>
    rw [List.map_cons, List.foldl_cons, ih, Component.walk, List.append_assoc]
    rfl

/-- Steps up lead back, and not above the root. -/
theorem foldl_walk_ups (ups level : Nat) (n : String) :
    (List.replicate ups Component.up).foldl Component.walk (List.replicate level n) =
      List.replicate (level - ups) n := by
  induction ups generalizing level with
  | zero => rfl
  | succ ups ih =>
    rw [List.replicate_succ, List.foldl_cons, Component.walk, List.dropLast_replicate, ih]
    congr 1
    omega

/-- From deep below the root, names behind the root lead to a shorter way than names behind some `..`. -/
theorem foldl_walk_root_ne (names others : List String) (ups : Nat) :
    (.root :: names.map Component.name).foldl Component.walk (List.replicate (ups + names.length + 1) "a") ≠
      (List.replicate ups Component.up ++ others.map Component.name).foldl Component.walk
        (List.replicate (ups + names.length + 1) "a") := by
  intro same
  have lengths := congrArg List.length same
  rw [List.foldl_cons, foldl_walk_names, List.foldl_append, foldl_walk_ups, foldl_walk_names, List.length_append,
    List.length_append, List.length_replicate] at lengths
  simp only [Component.walk, List.length_nil] at lengths
  omega

/-- Of two ways up and down that agree from everywhere, the first goes no higher than the second. Otherwise the second
would keep a name of the place it starts from, which the first has to have itself, whatever that name is. -/
theorem ups_le {ups ups' : Nat} {names names' : List String}
    (same : ∀ n ∈ ["a", "b"], List.replicate (ups - ups) n ++ names = List.replicate (ups - ups') n ++ names') :
    ups ≤ ups' := by
  refine Nat.le_of_not_lt fun higher => ?_
  obtain ⟨kept, more⟩ : ∃ kept, ups - ups' = kept + 1 := ⟨ups - ups' - 1, by omega⟩
  simp only [more, Nat.sub_self, List.replicate_zero, List.nil_append, List.replicate_succ] at same
  have first := (same "a" (by simp)).symm.trans (same "b" (by simp))
  exact absurd (List.cons.inj first).1 (by decide)

/-- Reduced components that lead to the same place from everywhere are the same. Few places are enough to tell them
apart: those with one name, or another one, at each of their levels. -/
theorem Reduced.eq_of_walk {seen others : List Component} (reduced : Reduced seen) (reduced' : Reduced others)
    (same : ∀ level, ∀ n ∈ ["a", "b"], seen.reverse.foldl Component.walk (List.replicate level n) =
      others.reverse.foldl Component.walk (List.replicate level n)) : seen = others := by
  apply List.reverse_inj.mp
  -- Both begin at the root, or just one of them, or neither. If just one does, a deep enough place tells them apart.
  rcases reduced.split with ⟨names, shape⟩ | ⟨ups, names, shape⟩ <;>
    rcases reduced'.split with ⟨names', shape'⟩ | ⟨ups', names', shape'⟩ <;> rw [shape, shape'] at same ⊢
  · have agree := same 0 "a" (by simp)
    rw [List.foldl_cons, List.foldl_cons, foldl_walk_names, foldl_walk_names] at agree
    rw [List.append_cancel_left agree]
  · exact absurd (same _ "a" (by simp)) (foldl_walk_root_ne names names' ups')
  · exact absurd (same _ "a" (by simp)).symm (foldl_walk_root_ne names' names ups)
  · simp only [List.foldl_append, foldl_walk_ups, foldl_walk_names] at same
    have le := ups_le (same ups)
    have ge := ups_le fun n mem => (same ups' n mem).symm
    obtain rfl := Nat.le_antisymm le ge
    rw [List.append_cancel_left (same 0 "a" (by simp))]

/-! ## Joined paths -/

/-- The components of the pieces of a text between slashes. -/
def pieces (chars : List Char) : List Component :=
  (chars.splitOn '/').filterMap Component.ofPiece?

theorem pieces_append_slash (front back : List Char) : pieces (front ++ '/' :: back) = pieces front ++ pieces back := by
  rw [pieces, List.splitOn_append_cons_self, List.filterMap_append]
  rfl

/-- An absolute path starts at the root. -/
theorem components_of_isAbsolute {p : Path} (absolute : p.isAbsolute = true) :
    p.components = .root :: pieces p.text.toList := by
  obtain ⟨rest, text⟩ : ∃ rest, p.text.toList = '/' :: rest := by
    rwa [isAbsolute, beq_iff_eq, List.head?_eq_some_iff] at absolute
  have split : pieces ('/' :: rest) = pieces [] ++ pieces rest := pieces_append_slash [] rest
  rw [components, text, split]
  rfl

/-- A path that is not absolute has the components of its pieces, behind a `.` perhaps. -/
theorem components_of_not_isAbsolute {p : Path} (relative : p.isAbsolute = false) :
    p.components = pieces p.text.toList ∨ p.components = .here :: pieces p.text.toList := by
  rw [components, componentsOf.eq_def]
  split
  case h_1 rest text =>
    rw [isAbsolute, text] at relative
    contradiction
  case h_2 =>
    rw [pieces]
    split
    case h_1 split =>
      rw [split, List.filterMap_cons_none (by rfl)]
      exact .inr rfl
    case h_2 => exact .inl rfl

/-- A walk along the pieces of a path begins at the root if the path is absolute. -/
theorem foldl_walk_components (names : List String) (p : Path) :
    p.components.foldl Component.walk names =
      (pieces p.text.toList).foldl Component.walk (if p.isAbsolute then [] else names) := by
  cases absolute : p.isAbsolute with
  | true =>
    rw [components_of_isAbsolute absolute]
    rfl
  | false =>
    rcases components_of_not_isAbsolute absolute with plain | here
    · rw [plain]
      rfl
    · rw [here]
      rfl

/-- A relative path stands behind a slash of the text joined, and what is in front of that slash has the pieces of the
directory. -/
theorem text_join {dir p : Path} (relative : p.isAbsolute = false) (written : dir.text ≠ "") :
    ∃ front, (dir.join p).text.toList = front ++ '/' :: p.text.toList ∧ pieces front = pieces dir.text.toList := by
  have unwritten : dir.text.isEmpty = false := Bool.eq_false_iff.mpr fun empty => written (String.isEmpty_iff.mp empty)
  rw [join, if_neg (by simp [relative]), unwritten, Bool.false_or]
  split
  case isTrue slash =>
    obtain ⟨front, text⟩ := List.getLast?_eq_some_iff.mp (beq_iff_eq.mp slash)
    have same : pieces (front ++ ['/']) = pieces front ++ pieces [] := pieces_append_slash front []
    refine ⟨front, ?_, ?_⟩
    · rw [String.toList_append, text, List.append_assoc]
      rfl
    · rw [text, same]
      exact (List.append_nil _).symm
  case isFalse =>
    refine ⟨dir.text.toList, ?_, rfl⟩
    rw [String.toList_append, String.toList_append, List.append_assoc]
    rfl

theorem isAbsolute_join {dir p : Path} (relative : p.isAbsolute = false) (written : dir.text ≠ "") :
    (dir.join p).isAbsolute = dir.isAbsolute := by
  obtain ⟨c, rest, text⟩ := List.exists_cons_of_ne_nil (mt String.toList_eq_nil_iff.mp written)
  rw [join, if_neg (by simp [relative])]
  split <;> simp [isAbsolute, text]

/-- A joined path leads to where its second part leads from where its first part leads. -/
theorem foldl_walk_join (names : List String) (dir p : Path) :
    (dir.join p).components.foldl Component.walk names =
      p.components.foldl Component.walk (dir.components.foldl Component.walk names) := by
  cases absolute : p.isAbsolute with
  | true =>
    rw [join, if_pos absolute, components_of_isAbsolute absolute]
    rfl
  | false =>
    by_cases empty : dir.text = ""
    · have alone : dir.join p = p := by simp [join, absolute, empty]
      have nowhere : dir.components = [] := by
        rw [components, empty]
        rfl
      rw [alone, nowhere]
      rfl
    · obtain ⟨front, text, same⟩ := text_join absolute empty
      rw [foldl_walk_components, text, pieces_append_slash, same, isAbsolute_join absolute empty, List.foldl_append,
        ← foldl_walk_components, foldl_walk_components _ p, absolute]
      rfl

end Path

namespace Location

open CompileDb.Path

/-! ## Where normal forms and keys lead -/

/-- The normal form of a path leads where the path does. -/
theorem resolve_normalize (here : Location) (p : Path) : here.resolve p.normalize = here.resolve p := by
  apply Location.ext
  rw [names_resolve, names_resolve, components_normalize]
  exact foldl_walk_normalComponents here.names p.components

/-- A joined path leads from where its directory does. -/
theorem resolve_join (here : Location) (dir p : Path) : here.resolve (dir.join p) = (here.resolve dir).resolve p :=
  Location.ext (foldl_walk_join here.names dir p)

/-- An absolute path leads to the same place from everywhere. -/
theorem resolve_of_isAbsolute {p : Path} (absolute : p.isAbsolute = true) (here there : Location) :
    here.resolve p = there.resolve p := by
  apply Location.ext
  rw [names_resolve, names_resolve, components_of_isAbsolute absolute]
  rfl

end Location

namespace Path

/-- Normal forms are the same text exactly if their paths lead to the same place from everywhere. -/
theorem normalize_eq_iff {p q : Path} :
    p.normalize = q.normalize ↔ ∀ here : Location, here.resolve p = here.resolve q := by
  constructor
  · intro same here
    rw [← here.resolve_normalize, same, here.resolve_normalize]
  · intro same
    have readable : ∀ n ∈ ["a", "b"], (Component.name n).Readable :=
      List.forall_mem_cons.mpr ⟨⟨by decide, rfl⟩, List.forall_mem_singleton.mpr ⟨by decide, rfl⟩⟩
    have agree : p.components.foldl foldComponent [] = q.components.foldl foldComponent [] := by
      refine (reduced_components p).eq_of_walk (reduced_components q) fun level n mem => ?_
      have walked := congrArg Location.names (same (.deep level n (readable n mem)))
      exact (foldl_walk_normalComponents _ _).trans (walked.trans (foldl_walk_normalComponents _ _).symm)
    rw [normalize, normalComponents, agree]
    rfl

/-- The components of a normal form are names, behind the root if it is absolute, and else behind some `..`. -/
theorem components_normalize_eq (p : Path) :
    if p.normalize.isAbsolute then ∃ names : List String, p.normalize.components = .root :: names.map .name
    else ∃ (ups : Nat) (names : List String), p.normalize.components = List.replicate ups .up ++ names.map .name := by
  have split := (reduced_components p).split
  rw [← normalComponents, ← components_normalize] at split
  cases absolute : p.normalize.isAbsolute with
  | true =>
    refine split.resolve_right ?_
    rintro ⟨ups, names, shape⟩
    have root : .root ∈ List.replicate ups Component.up ++ names.map .name := by
      rw [← shape, components_of_isAbsolute absolute]
      exact List.mem_cons_self
    simp at root
  | false =>
    refine split.resolve_left ?_
    rintro ⟨names, shape⟩
    have root : Component.root ∈ pieces p.normalize.text.toList := by
      rcases components_of_not_isAbsolute absolute with plain | here
      · rw [← plain, shape]
        exact List.mem_cons_self
      · rw [here] at shape
        cases shape
    have readable : Component.root.Readable := Component.readable_of_mem_pieces (List.Subset.refl _) root
    exact absurd readable.2 (by decide)

/-- **Normal forms are sound and canonical.** From everywhere, the normal form of a path leads to where the path leads,
and two paths have the same normal form, to the letter, exactly if they lead to the same place from everywhere. So the
normal form of a normal form is that form. No `..` is in an absolute one, and in a relative one it is in front only. The
key of a command leads to where its file leads from its directory, and two commands have the same key exactly if these
places are the same from everywhere. An absolute file is there whatever the directory is. -/
theorem normalize_canonical (p q : Path) (c c' : Command) :
    (∀ here : Location, here.resolve p.normalize = here.resolve p) ∧
      (p.normalize = q.normalize ↔ ∀ here : Location, here.resolve p = here.resolve q) ∧
      p.normalize.normalize = p.normalize ∧
      (if p.normalize.isAbsolute then ∃ names : List String, p.normalize.components = .root :: names.map .name
        else ∃ (ups : Nat) (names : List String),
          p.normalize.components = List.replicate ups .up ++ names.map .name) ∧
      (∀ here : Location, here.resolve c.key = (here.resolve c.directory).resolve c.file) ∧
      (c.key = c'.key ↔ ∀ here : Location,
        (here.resolve c.directory).resolve c.file = (here.resolve c'.directory).resolve c'.file) ∧
      (c.file.isAbsolute = true → ∀ here there : Location, here.resolve c.file = there.resolve c.file) := by
  refine ⟨fun here => here.resolve_normalize p, normalize_eq_iff, normalize_normalize p, components_normalize_eq p, ?_,
    ?_, Location.resolve_of_isAbsolute⟩
  · intro here
    rw [Command.key, here.resolve_normalize, here.resolve_join]
  · rw [Command.key, Command.key, normalize_eq_iff]
    exact forall_congr' fun here => by rw [here.resolve_join, here.resolve_join]

/-- Three spellings of one file, two of them with an absolute one. -/
example :
    (Command.key ⟨⟨"/p/lib/.."⟩, ⟨"./src//a.c"⟩, []⟩, Command.key ⟨⟨"q"⟩, ⟨"/../p/src/a.c/"⟩, []⟩,
      Command.key ⟨⟨"x/../.."⟩, ⟨"../a.c"⟩, []⟩) = (⟨"/p/src/a.c"⟩, ⟨"/p/src/a.c"⟩, ⟨"../../a.c"⟩) := by
  decide +kernel

end Path

end CompileDb
