import CompileDb.Proofs.Matching
import CompileDb.Shell.Expansion

/-!
# How words are cut into fields

Cutting without a limit loses nothing but separators in values: the fields put together are the items without them
(`flatten_fields`). A value that is cut at blanks becomes its words, and the positional parameters between quotes become
one field each, whatever they hold.
-/

namespace CompileDb.Shell

/-- A place in a value at which it is cut. -/
def Item.separates (separators : List Char) : Item → Bool
  | loose c => separators.contains c
  | _ => false

namespace Cutting

variable {separators : List Char} {s : Cutting}

/-! ## What is kept -/

/-- All characters of the fields so far. -/
def kept (s : Cutting) : List Glyph := s.fields.reverse.flatten ++ s.field.reverse

/-- Cutting without a limit: characters at hand belong to a field that has begun. -/
structure Unlimited (s : Cutting) : Prop where
  left : s.left = none
  shortened : s.shortened = none
  begun : s.begun = false → s.field = []

theorem Unlimited.start : (Cutting.start none).Unlimited := ⟨rfl, rfl, fun _ => rfl⟩

theorem Unlimited.blank (h : s.Unlimited) (blank : Bool) : { s with blank }.Unlimited := ⟨h.left, h.shortened, h.begun⟩

theorem Unlimited.addAny (h : s.Unlimited) (g : Option Glyph) : (s.addAny g).Unlimited := by
  cases g with
  | none => exact h
  | some g => exact ⟨h.left, h.shortened, by simp [Cutting.addAny, add]⟩

theorem Unlimited.cut (h : s.Unlimited) : s.cut.Unlimited := ⟨h.left, h.shortened, fun _ => rfl⟩

/-- Without a limit every separator cuts. -/
theorem Unlimited.cutAt (h : s.Unlimited) (g : Option Glyph) : s.cutAt g = s.cut := by
  rw [Cutting.cutAt, h.left]
  simp [Cutting.cut, h.left]

theorem kept_addAny (s : Cutting) (g : Option Glyph) : (s.addAny g).kept = s.kept ++ g.toList := by
  cases g <;> simp [kept, addAny, add]

/-- A cut loses no glyph. -/
theorem kept_cut (s : Cutting) : s.cut.kept = s.kept := by
  simp [kept, cut]

/-- At a place where a field may be cut, its character is kept exactly if it is not cut there. -/
theorem Unlimited.separate (h : s.Unlimited) (g : Option Glyph) (separates isBlank : Bool) :
    (s.separate g separates isBlank).Unlimited ∧
      (s.separate g separates isBlank).kept = s.kept ++ if separates then [] else g.toList := by
  unfold Cutting.separate
  rw [if_neg (by simp [h.left])]
  generalize (if s.afterStrict || s.strict then false else isBlank) = blank
  cases separates with
  | false =>
    simp only [Bool.false_eq_true, if_false]
    split
    · exact ⟨(h.blank false).addAny g, kept_addAny ..⟩
    · exact ⟨h.addAny g, kept_addAny ..⟩
  | true =>
    simp only [if_true, List.append_nil]
    split
    · split
      · exact ⟨h, rfl⟩
      · exact ⟨h.blank false, rfl⟩
    · split
      · exact ⟨h, rfl⟩
      · rw [(h.blank _).cutAt]
        exact ⟨(h.blank _).cut, kept_cut _⟩

/-- An item is kept, unless a value is cut there. -/
theorem Unlimited.take (h : s.Unlimited) (separators : List Char) (item : Item) :
    (s.take separators item).Unlimited ∧
      (s.take separators item).kept = s.kept ++ glyphs ([item].filter (!·.separates separators)) := by
  cases item with
  | char c quoted => exact ⟨h.addAny (some (c, quoted)), kept_addAny s (some (c, quoted))⟩
  | mark => exact ⟨⟨h.left, h.shortened, by simp [Cutting.take]⟩, (List.append_nil _).symm⟩
  | value strict => exact ⟨⟨h.left, h.shortened, h.begun⟩, (List.append_nil _).symm⟩
  | divider => exact h.separate none true true
  | loose c =>
    refine ⟨(h.separate ..).1, (h.separate ..).2.trans ?_⟩
    have separates : (Item.loose c).separates separators = separators.contains c := rfl
    rw [List.filter_singleton, separates]
    cases separators.contains c <;> rfl

/-- Taking the items keeps every glyph that is not a separator, in order. -/
theorem Unlimited.foldl_take (h : s.Unlimited) (separators : List Char) (items : List Item) :
    (items.foldl (Cutting.take separators) s).Unlimited ∧
      (items.foldl (Cutting.take separators) s).kept = s.kept ++ glyphs (items.filter (!·.separates separators)) := by
  induction items generalizing s with
  | nil => exact ⟨h, (List.append_nil _).symm⟩
  | cons item items ih =>
    obtain ⟨unlimited, kept⟩ := h.take separators item
    obtain ⟨last, all⟩ := ih unlimited
    refine ⟨last, all.trans ?_⟩
    rw [kept, List.append_assoc, glyphs, glyphs, glyphs, ← List.filterMap_append, ← List.filter_append]
    rfl

/-- The field at hand is the last one, if it has begun. -/
def finish (s : Cutting) : List (List Glyph) := (if s.strict || s.begun then s.cut else s).fields.reverse

theorem Unlimited.flatten_finish (h : s.Unlimited) : s.finish.flatten = s.kept := by
  unfold finish
  split
  case isTrue => simp [kept, Cutting.cut]
  case isFalse unbegun =>
    have nothing := h.begun (by simpa using (Bool.or_eq_false_iff.1 (Bool.not_eq_true _ ▸ unbegun)).2)
    simp [kept, nothing]

end Cutting

variable {separators : List Char}

/-- The fields are what is collected once all the items are taken. -/
theorem fields_eq_finish (items : List Item) :
    fields separators none items = (items.foldl (Cutting.take separators) (.start none)).finish := by
  have unlimited := (Cutting.Unlimited.start.foldl_take separators items).1
  unfold fields
  simp only [unlimited.shortened]
  rfl

/-- **Cutting loses separators only**: the fields put together are the items, in order, without the characters at which
values are cut. -/
theorem flatten_fields (items : List Item) :
    (fields separators none items).flatten = glyphs (items.filter (!·.separates separators)) := by
  obtain ⟨unlimited, kept⟩ := Cutting.Unlimited.start.foldl_take separators items
  rw [fields_eq_finish, unlimited.flatten_finish, kept]
  rfl

/-! ## Values -/

/-- Characters of a value, none of which was quoted. -/
def unquoted (text : List Char) : List Glyph := text.map (·, false)

/-- The words of a text: its parts between separators, without empty ones. -/
def wordsBetween (separators text : List Char) : List (List Char) :=
  (text.splitOnP separators.contains).filter (!·.isEmpty)

namespace Cutting

variable {s : Cutting} {word : List Char} {c : Char}

/-- A value is being cut, and these characters are at hand. -/
structure Within (separators : List Char) (s : Cutting) (word : List Char) : Prop where
  unlimited : s.Unlimited
  lax : s.strict = false ∧ s.afterStrict = false
  field : s.field = (unquoted word).reverse
  begun : s.begun = !word.isEmpty
  blank : s.blank = true → word = []
  whole : ∀ c ∈ word, separators.contains c = false

/-- A blank ends the word at hand, if there is one. -/
theorem Within.blankAt (h : s.Within separators word) (separator : separators.contains c = true)
    (isBlank : isFieldBlank c = true) :
    (s.take separators (.loose c)).Within separators [] ∧
      (s.take separators (.loose c)).fields.reverse =
        s.fields.reverse ++ ([word].filter (!·.isEmpty)).map unquoted := by
  have unlimited : s.left ≠ some 0 := by simp [h.unlimited.left]
  have ordinary : (if (s.afterStrict || s.strict) = true then false else true) = true := by simp [h.lax]
  have taken : s.take separators (.loose c) =
      if s.blank = true then s else if (!s.begun) = true then s else ({ s with blank := true }).cut := by
    simp only [Cutting.take, Cutting.separate, separator, isBlank, if_neg unlimited, ordinary, Bool.true_and, if_true]
    rw [(h.unlimited.blank true).cutAt]
  rw [taken]
  cases word with
  | nil =>
    rw [h.begun, List.isEmpty_nil, Bool.not_true, Bool.not_false, if_pos rfl, ite_self]
    exact ⟨h, (List.append_nil _).symm⟩
  | cons d word =>
    have unblank : s.blank ≠ true := fun blank => List.cons_ne_nil _ _ (h.blank blank)
    rw [if_neg unblank, if_neg (by simp [h.begun])]
    refine ⟨⟨(h.unlimited.blank true).cut, h.lax, rfl, rfl, fun _ => rfl, List.forall_mem_nil _⟩, ?_⟩
    simp [Cutting.cut, h.field]

/-- Any other character is added to the word at hand. -/
theorem Within.charAt (h : s.Within separators word) (other : separators.contains c = false) :
    (s.take separators (.loose c)).Within separators (word ++ [c]) ∧
      (s.take separators (.loose c)).fields = s.fields := by
  have unlimited : s.left ≠ some 0 := by simp [h.unlimited.left]
  have whole : ∀ d ∈ word ++ [c], separators.contains d = false := by
    intro d mem
    rcases List.mem_append.1 mem with mem | mem
    · exact h.whole d mem
    · exact List.mem_singleton.1 mem ▸ other
  have field : (c, false) :: s.field = (unquoted (word ++ [c])).reverse := by simp [h.field, unquoted]
  have begun : true = !(word ++ [c]).isEmpty := by simp
  simp only [Cutting.take, Cutting.separate, other, if_neg unlimited, Bool.false_eq_true, if_false]
  split
  case isTrue =>
    exact ⟨⟨(h.unlimited.blank false).addAny (some (c, false)), h.lax, field, begun, by simp [addAny, add], whole⟩, rfl⟩
  case isFalse unblank =>
    exact ⟨⟨h.unlimited.addAny (some (c, false)), h.lax, field, begun, by simp [addAny, add, unblank], whole⟩, rfl⟩

/-- Unquoted text is cut at its blanks, and each run of blanks cuts once. -/
theorem Within.finish_foldl (h : s.Within separators word) (blanks : ∀ c ∈ separators, isFieldBlank c = true)
    (text : List Char) :
    ((text.map Item.loose).foldl (Cutting.take separators) s).finish =
      s.fields.reverse ++ (wordsBetween separators (word ++ text)).map unquoted := by
  induction text generalizing s word with
  | nil =>
    rw [wordsBetween, List.append_nil, List.splitOnP_eq_singleton h.whole]
    cases word with
    | nil => simp [finish, h.lax.1, h.begun]
    | cons d word => simp [finish, h.begun, Cutting.cut, h.field]
  | cons c text ih =>
    rw [List.map_cons, List.foldl_cons]
    cases separator : separators.contains c with
    | true =>
      obtain ⟨within, fields⟩ := h.blankAt separator (blanks c (List.contains_iff_mem.1 separator))
      rw [ih within, fields, wordsBetween, wordsBetween,
        List.splitOnP_append_cons_of_forall_mem h.whole c separator, List.append_assoc, ← List.map_append,
        ← List.filter_append]
      rfl
    | false =>
      obtain ⟨within, fields⟩ := h.charAt separator
      rw [ih within, fields, List.append_assoc]
      rfl

end Cutting

/-- **A value is cut into its words** at separators that are blanks. -/
theorem fields_value (blanks : ∀ c ∈ separators, isFieldBlank c = true) (text : List Char) :
    fields separators none (.value false :: text.map Item.loose) =
      (wordsBetween separators text).map unquoted := by
  have within : (Cutting.take separators (.start none) (.value false)).Within separators [] :=
    ⟨⟨rfl, rfl, fun _ => rfl⟩, ⟨rfl, rfl⟩, rfl, rfl, fun _ => rfl, List.forall_mem_nil _⟩
  rw [fields_eq_finish, List.foldl_cons, within.finish_foldl blanks]
  rfl

/-! ## Positional parameters -/

namespace Cutting

variable {s : Cutting}

/-- Parameters that stay apart are being cut, and these characters are at hand. -/
structure Apart (s : Cutting) (field : List Glyph) : Prop where
  unlimited : s.Unlimited
  strict : s.strict = true
  blank : s.blank = false
  field : s.field = field.reverse

/-- Quoted text goes into the field at hand uncut. -/
theorem Apart.quoted {field : List Glyph} (h : s.Apart field) (separators text : List Char) :
    ((Item.ofQuoted text).foldl (Cutting.take separators) s).Apart (field ++ text.map (·, true)) ∧
      ((Item.ofQuoted text).foldl (Cutting.take separators) s).fields = s.fields := by
  induction text generalizing s field with
  | nil => exact ⟨by simpa [Item.ofQuoted] using h, rfl⟩
  | cons c text ih =>
    have added : (s.add (c, true)).Apart (field ++ [(c, true)]) :=
      ⟨h.unlimited.addAny (some (c, true)), h.strict, h.blank, by simp [add, h.field]⟩
    obtain ⟨apart, fields⟩ := ih added
    rw [List.append_assoc] at apart
    exact ⟨apart, fields⟩

/-- A divider ends the field at hand even when it is empty. -/
theorem Apart.divided {field : List Glyph} (h : s.Apart field) (separators : List Char) :
    (s.take separators .divider).Apart [] ∧ (s.take separators .divider).fields = field :: s.fields := by
  have unlimited : s.left ≠ some 0 := by simp [h.unlimited.left]
  have strict : (if (s.afterStrict || s.strict) = true then false else true) = false := by simp [h.strict]
  have taken : s.take separators .divider = ({ s with blank := false }).cut := by
    simp only [Cutting.take, Cutting.separate, if_neg unlimited, strict, h.blank, Bool.false_and, Bool.false_eq_true,
      if_false, if_true]
    rw [(h.unlimited.blank false).cutAt]
  rw [taken]
  exact ⟨⟨(h.unlimited.blank false).cut, h.strict, rfl, rfl⟩, by simp [Cutting.cut, h.field]⟩

/-- Quoted texts with dividers between them are one field each. -/
theorem Apart.finish_foldl (h : s.Apart []) (separators text : List Char) (texts : List (List Char)) :
    (([Item.divider].intercalate ((text :: texts).map Item.ofQuoted)).foldl (Cutting.take separators) s).finish =
      s.fields.reverse ++ (text :: texts).map (·.map (·, true)) := by
  induction texts generalizing s text with
  | nil =>
    obtain ⟨apart, fields⟩ := h.quoted separators text
    simp [finish, apart.strict, Cutting.cut, apart.field, fields]
  | cons next texts ih =>
    obtain ⟨apart, fields⟩ := h.quoted separators text
    obtain ⟨divided, fields'⟩ := apart.divided separators
    have later := ih divided next
    rw [List.map_cons] at later
    rw [List.map_cons, List.map_cons, List.intercalate_cons_cons, List.foldl_append, List.foldl_append]
    refine later.trans ?_
    simp [fields', fields]

end Cutting

/-- **The positional parameters between quotes are passed on as they are**: each is one field, be it empty or full of
separators, and stands for itself, whatever files there are. -/
theorem fields_positional (s : State) {e : Expansion} (quoted : e.isQuoted = true) (cuts : e.cuts = true)
    (values : List String) (files : FileTree) :
    (fields separators none ((ParameterValue.all values true).items s e)).flatMap (fileNames files) = values := by
  cases values with
  | nil => simp [ParameterValue.items, quoted, cuts, fields, Cutting.start]
  | cons value values =>
    have apart : (Cutting.take separators (.start none) (.value true)).Apart [] :=
      ⟨⟨rfl, rfl, fun _ => rfl⟩, rfl, rfl, rfl⟩
    have one : fields separators none ((ParameterValue.all (value :: values) true).items s e) =
        (value :: values).map fun v => v.toList.map (·, true) := by
      have all := apart.finish_foldl separators value.toList (values.map String.toList)
      rw [fields_eq_finish]
      simpa [ParameterValue.items, quoted, cuts, Function.comp_def, Cutting.take, Cutting.start] using all
    rw [one, List.flatMap_map]
    simp [fileNames_quoted]

/-- The second parameter is empty, and the first one looks like a pattern. -/
example :
    fields [' '] none (.value true :: [Item.divider].intercalate [Item.ofQuoted "a *".toList, Item.ofQuoted []]) =
      [[('a', true), (' ', true), ('*', true)], []] := by decide

end CompileDb.Shell
