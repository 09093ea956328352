import CompileDb.Proofs.ValueGrammar

/-!
# A grammar of database documents

What a document of entries looks like: a list of objects with members in any order, each known one at most once, or of
lists of those members. A document is read as the entries that it describes, and as no others, and what describes no
entries is not read (`readAll_eq_ok_iff`).
-/

namespace CompileDb

namespace Json

/-! ## Texts, lists and null -/

/-- Which value stands at the front of a text, and what is left behind it. -/
abbrev Grammar (α : Type) := List Char → α → List Char → Prop

/-- A text in quotes. -/
def Quoted : Grammar String := fun text s rest =>
  ∃ written, skipBlanks text = '"' :: (written ++ '"' :: rest) ∧ Spells written s.toList

/-- `null`, or a value. -/
inductive OrNull {α : Type} (value : Grammar α) : Grammar (Option α)
  | null {text rest : List Char} : skipBlanks text = 'n' :: (['u', 'l', 'l'] ++ rest) → OrNull value text none rest
  | given {text rest : List Char} {a : α} : value text a rest → OrNull value text (some a) rest

/-- What follows an element up to the end of its list. -/
inductive Later {α : Type} (element : Grammar α) : Grammar (List α)
  | closed {text rest : List Char} : skipBlanks text = ']' :: rest → Later element text [] rest
  | more {text next behind rest : List Char} {a : α} {others : List α} : skipBlanks text = ',' :: next →
      element next a behind → Later element behind others rest → Later element text (a :: others) rest

/-- A list. -/
inductive Listed {α : Type} (element : Grammar α) : Grammar (List α)
  | empty {text inner rest : List Char} : skipBlanks text = '[' :: inner → skipBlanks inner = ']' :: rest →
      Listed element text [] rest
  | elements {text inner behind rest : List Char} {a : α} {others : List α} : skipBlanks text = '[' :: inner →
      element inner a behind → Later element behind others rest → Listed element text (a :: others) rest

/-- On texts up to a size, for which its fuel is enough, a reader takes just what stands there by a grammar. It takes no
`null` and no closing bracket for a value. -/
structure Follows {α : Type} (size : Nat) (reader : Reader α) (grammar : Grammar α) : Prop where
  reads {text : List Char} : text.length ≤ size → ∀ {a rest}, reader text = .ok (a, rest) ↔ grammar text a rest
  blanks (text : List Char) : reader (skipBlanks text) = reader text
  head {text a rest} : grammar text a rest → ∃ c tail, skipBlanks text = c :: tail ∧ c ≠ 'n' ∧ c ≠ ']'
  shorter {text a rest} : grammar text a rest → rest.length < text.length

/-- The reader of strings follows the grammar of quoted texts. -/
theorem readText_follows (size : Nat) : Follows size readText Quoted where
  reads {text} _ s rest := by
    unfold readText
    split
    case h_1 inner found =>
      rw [readQuoted_eq_ok_iff]
      constructor
      · rintro ⟨written, rfl, spells⟩
        exact ⟨written, found, spells⟩
      · rintro ⟨written, found', spells⟩
        rw [found] at found'
        exact ⟨written, (List.cons.inj found').2, spells⟩
    case h_2 other =>
      constructor
      · intro ok
        cases ok
      · rintro ⟨written, found, -⟩
        exact absurd found (other _)
  blanks text := by
    unfold readText
    rw [skipBlanks_skipBlanks]
  head := by
    rintro text s rest ⟨written, found, -⟩
    exact ⟨_, _, found, by decide⟩
  shorter := by
    rintro text s rest ⟨written, found, -⟩
    have room := length_lt_of_skipBlanks found
    simp only [List.length_append, List.length_cons] at room
    omega

theorem OrNull.length_lt {α : Type} {size : Nat} {reader : Reader α} {grammar : Grammar α}
    (follows : Follows size reader grammar) {text rest : List Char} {a : Option α} (h : OrNull grammar text a rest) :
    rest.length < text.length := by
  cases h with
  | null found =>
    have room := length_lt_of_skipBlanks found
    simp only [List.length_append, List.length_cons] at room
    omega
  | given value => exact follows.shorter value

section

variable {α : Type} {size fuel : Nat} {reader : Reader α} {grammar : Grammar α} {text next rest : List Char}

/-- Where null is allowed the reader follows the grammar extended by it. -/
theorem Follows.optional (follows : Follows size reader grammar) (short : text.length ≤ size) {a : Option α} :
    readOptional reader text = .ok (a, rest) ↔ OrNull grammar text a rest := by
  unfold readOptional
  split
  case h_1 inner found =>
    constructor
    · intro ok
      obtain ⟨behind, letters, same⟩ := map_eq_ok_iff.mp ok
      cases same
      rw [skipLetters_eq_ok_iff.mp letters] at found
      exact .null found
    · rintro (found' | value)
      · rw [found] at found'
        exact map_eq_ok_iff.mpr ⟨rest, skipLetters_eq_ok_iff.mpr (List.cons.inj found').2, rfl⟩
      · obtain ⟨c, tail, found', other, -⟩ := follows.head value
        rw [found] at found'
        exact absurd (List.cons.inj found').1.symm other
  case h_2 other =>
    rw [follows.blanks]
    constructor
    · intro ok
      obtain ⟨⟨a, behind⟩, value, same⟩ := map_eq_ok_iff.mp ok
      cases same
      exact .given ((follows.reads short).mp value)
    · rintro (found | value)
      · exact absurd found (other _)
      · exact map_eq_ok_iff.mpr ⟨_, (follows.reads short).mpr value, rfl⟩

/-! ## Elements -/

/-- A text goes on with a token other than a closing bracket. -/
def GoesOn (text : List Char) : Prop := ∃ c tail, skipBlanks text = c :: tail ∧ c ≠ ']'

theorem nextElement_none_iff {first : Bool} :
    nextElement first text = .ok none ↔ ∃ rest, skipBlanks text = ']' :: rest := by
  unfold nextElement
  split
  case h_1 empty => simp [empty]
  case h_2 rest found => simp [found]
  case h_3 c rest other found =>
    rw [found]
    refine iff_of_false ?_ ?_
    · split
      case isTrue => simp
      case isFalse =>
        split
        · split <;> simp
        · simp
    · rintro ⟨rest', same⟩
      exact other (List.cons.inj same).1

theorem nextElement_first_iff : nextElement true text = .ok (some next) ↔ next = skipBlanks text ∧ GoesOn text := by
  unfold nextElement GoesOn
  split
  case h_1 empty => simp [empty]
  case h_2 rest found => simp [found]
  case h_3 c rest other found =>
    rw [found, if_pos rfl, Except.ok.injEq, Option.some.injEq, eq_comm, and_iff_left]
    exact ⟨c, rest, rfl, other⟩

/-- Behind the first element a comma must stand, with a value after it. -/
theorem nextElement_later_iff : nextElement false text = .ok (some next) ↔
    ∃ behind, skipBlanks text = ',' :: behind ∧ next = skipBlanks behind ∧ GoesOn behind := by
  unfold nextElement GoesOn
  split
  case h_1 empty => simp [empty]
  case h_2 rest found => simp [found]
  case h_3 c rest other found =>
    rw [found, if_neg Bool.false_ne_true]
    by_cases comma : c = ','
    · subst comma
      rw [if_pos rfl]
      split
      case h_1 empty => simp [empty]
      case h_2 found => simp [found]
      case h_3 none bracket =>
        constructor
        · rintro ⟨⟩
          refine ⟨rest, rfl, rfl, ?_⟩
          cases head : skipBlanks rest with
          | nil => exact (none head).elim
          | cons d tail =>
            refine ⟨d, tail, rfl, ?_⟩
            rintro rfl
            exact bracket tail head
        · rintro ⟨behind, same, rfl, -⟩
          rw [(List.cons.inj same).2]
    · rw [if_neg comma]
      simp [comma]

theorem readClosing_eq_ok_iff {close : Char} : readClosing close text = .ok rest ↔ skipBlanks text = close :: rest := by
  unfold readClosing
  split
  case h_1 empty => simp [empty]
  case h_2 c behind found =>
    rw [found, List.cons.injEq]
    split
    case isTrue same => simp [same]
    case isFalse other => simp [other]

theorem Follows.goesOn (follows : Follows size reader grammar) {a : α} (value : grammar text a rest) : GoesOn text := by
  obtain ⟨c, tail, found, -, other⟩ := follows.head value
  exact ⟨c, tail, found, other⟩

theorem Follows.goesOn_optional (follows : Follows size reader grammar) {a : Option α}
    (value : OrNull grammar text a rest) : GoesOn text := by
  cases value with
  | null found => exact ⟨_, _, found, by decide⟩
  | given value => exact follows.goesOn value

theorem Later.length_lt (follows : Follows size reader grammar) {others : List α}
    (later : Later grammar text others rest) : rest.length < text.length := by
  induction later with
  | closed closed => exact length_lt_of_skipBlanks closed
  | more comma value _ ih =>
    have room := length_lt_of_skipBlanks comma
    have room' := follows.shorter value
    omega

/-- The rest of a list, as the grammar has it, is read to its end. -/
theorem readElements_of_later (follows : Follows size reader grammar) {others : List α}
    (later : Later grammar text others rest) (short : text.length ≤ size) (enough : text.length < fuel) {seen : List α}
    (begun : seen.isEmpty = false) :
    readElements reader fuel seen text = .ok (seen.reverse ++ others, rest) := by
  induction later generalizing fuel seen with
  | @closed text rest closed =>
    obtain ⟨fuel, rfl⟩ : ∃ n, fuel = n + 1 := ⟨fuel - 1, by omega⟩
    rw [readElements, begun, nextElement_none_iff.mpr ⟨rest, closed⟩]
    simp only [readClosing_eq_ok_iff.mpr closed, Except.map, List.append_nil]
  | @more text next behind rest a others comma value _ ih =>
    have room := length_lt_of_skipBlanks comma
    have room' := follows.shorter value
    obtain ⟨fuel, rfl⟩ : ∃ n, fuel = n + 1 := ⟨fuel - 1, by omega⟩
    have found : nextElement false text = .ok (some (skipBlanks next)) :=
      nextElement_later_iff.mpr ⟨next, comma, rfl, follows.goesOn value⟩
    have read : reader (skipBlanks next) = .ok (a, behind) := by
      rw [follows.blanks]
      exact (follows.reads (by omega)).mpr value
    rw [readElements, begun, found]
    simp only [read]
    rw [ih (by omega) (by omega) rfl]
    simp

/-- Whatever is read as the rest of a list is one. -/
theorem later_of_readElements (follows : Follows size reader grammar) (short : text.length ≤ size) {seen all : List α}
    (begun : seen.isEmpty = false) (ok : readElements reader fuel seen text = .ok (all, rest)) :
    ∃ others, Later grammar text others rest ∧ all = seen.reverse ++ others := by
  induction fuel generalizing text seen with
  | zero => cases ok
  | succ fuel ih =>
    rw [readElements, begun] at ok
    split at ok
    case h_1 => cases ok
    case h_2 none =>
      obtain ⟨behind, closed, same⟩ := map_eq_ok_iff.mp ok
      cases same
      exact ⟨[], .closed (readClosing_eq_ok_iff.mp closed), (List.append_nil _).symm⟩
    case h_3 next found =>
      obtain ⟨behind, comma, rfl, -⟩ := nextElement_later_iff.mp found
      rw [follows.blanks] at ok
      split at ok
      case h_1 => cases ok
      case h_2 a left read =>
        have room := length_lt_of_skipBlanks comma
        have value := (follows.reads (by omega)).mp read
        have room' := follows.shorter value
        obtain ⟨others, later, rfl⟩ := ih (by omega) rfl ok
        exact ⟨a :: others, .more comma value later, by simp⟩

/-- A reader of elements gives a reader of lists. -/
theorem Follows.list (follows : Follows size reader grammar) (enough : size < fuel) :
    Follows size (readList fuel reader) (Listed grammar) where
  reads {text} short all rest := by
    unfold readList
    split
    case h_1 inner found =>
      have room := length_lt_of_skipBlanks found
      obtain ⟨fuel, rfl⟩ : ∃ n, fuel = n + 1 := ⟨fuel - 1, by omega⟩
      constructor
      · intro ok
        rw [readElements] at ok
        split at ok
        case h_1 => cases ok
        case h_2 =>
          obtain ⟨behind, closed, same⟩ := map_eq_ok_iff.mp ok
          cases same
          exact .empty found (readClosing_eq_ok_iff.mp closed)
        case h_3 next first =>
          obtain ⟨rfl, -⟩ := nextElement_first_iff.mp first
          rw [follows.blanks] at ok
          split at ok
          case h_1 => cases ok
          case h_2 a behind read =>
            have value := (follows.reads (by omega)).mp read
            have room' := follows.shorter value
            obtain ⟨others, later, rfl⟩ := later_of_readElements follows (by omega) rfl ok
            exact .elements found value later
      · intro listed
        cases listed with
        | empty found' closed =>
          rw [found] at found'
          rw [(List.cons.inj found').2, readElements, nextElement_none_iff.mpr ⟨rest, closed⟩]
          simp only [readClosing_eq_ok_iff.mpr closed, Except.map, List.reverse_nil]
        | @elements _ inner' behind _ a others found' value later =>
          rw [found] at found'
          obtain rfl : inner = inner' := (List.cons.inj found').2
          have room' := follows.shorter value
          have first : nextElement true inner = .ok (some (skipBlanks inner)) :=
            nextElement_first_iff.mpr ⟨rfl, follows.goesOn value⟩
          have read : reader (skipBlanks inner) = .ok (a, behind) := by
            rw [follows.blanks]
            exact (follows.reads (by omega)).mpr value
          rw [readElements, List.isEmpty_nil, first]
          simp only [read]
          rw [readElements_of_later follows later (by omega) (by omega) rfl]
          simp
    case h_2 other =>
      constructor
      · intro ok
        cases ok
      · rintro (⟨found, -⟩ | ⟨found, -, -⟩)
        · exact absurd found (other _)
        · exact absurd found (other _)
  blanks text := by
    unfold readList
    rw [skipBlanks_skipBlanks]
  head := by
    rintro text all rest (⟨found, -⟩ | ⟨found, -, -⟩) <;> exact ⟨_, _, found, by decide⟩
  shorter := by
    rintro text all rest (⟨found, closed⟩ | ⟨found, value, later⟩)
    · have room := length_lt_of_skipBlanks found
      have room' := length_lt_of_skipBlanks closed
      omega
    · have room := length_lt_of_skipBlanks found
      have room' := follows.shorter value
      have room'' := later.length_lt follows
      omega

end

/-! ## Members -/

theorem nextMember_none_iff {first : Bool} {text : List Char} :
    nextMember first text = .ok none ↔ ∃ rest, skipBlanks text = '\x7d' :: rest := by
  unfold nextMember
  dsimp only
  split
  case h_1 empty => simp [empty]
  case h_2 rest found => simp [found]
  case h_3 c rest other found =>
    rw [found]
    refine iff_of_false ?_ ?_
    · split
      case isTrue =>
        split
        case h_1 => simp
        case h_2 => simp [map_eq_ok_iff]
        case h_3 => simp
      case isFalse =>
        split
        case isTrue =>
          split
          case h_1 => simp
          case h_2 => simp [map_eq_ok_iff]
          case h_3 => simp
        case isFalse => simp
    · rintro ⟨rest', same⟩
      exact other (List.cons.inj same).1

theorem nextMember_first_iff {text rest : List Char} {name : String} :
    nextMember true text = .ok (some (name, rest)) ↔ Quoted text name rest := by
  unfold nextMember Quoted
  dsimp only
  split
  case h_1 empty => simp [empty]
  case h_2 rest found => simp [found]
  case h_3 c tail other found =>
    rw [if_pos rfl, found]
    split
    case h_1 none => cases none
    case h_2 inner same => simp [map_eq_ok_iff, readQuoted_eq_ok_iff, same]
    case h_3 none quote =>
      refine iff_of_false (by simp) ?_
      rintro ⟨written, same, -⟩
      exact quote _ same

theorem nextMember_later_iff {text rest : List Char} {name : String} :
    nextMember false text = .ok (some (name, rest)) ↔
      ∃ next, skipBlanks text = ',' :: next ∧ Quoted next name rest := by
  unfold nextMember Quoted
  dsimp only
  split
  case h_1 empty => simp [empty]
  case h_2 rest found => simp [found]
  case h_3 c tail other found =>
    rw [if_neg Bool.false_ne_true, found]
    by_cases comma : c = ','
    · rw [if_pos comma, comma]
      split
      case h_1 empty => simp [empty]
      case h_2 inner same => simp [map_eq_ok_iff, readQuoted_eq_ok_iff, same]
      case h_3 none quote =>
        refine iff_of_false (by simp) ?_
        rintro ⟨next, split, written, same, -⟩
        rw [← (List.cons.inj split).2] at same
        exact quote _ same
    · rw [if_neg comma]
      simp [comma]

end Json

/-! ## Entries -/

namespace Entry

open Json

/-- The name of a member and its colon. -/
def Named : Grammar String := fun text name value =>
  ∃ behind, Quoted text name behind ∧ skipBlanks behind = ':' :: value

/-- What the value of a known member makes of an entry. The member is not there yet. -/
def Known {α : Type} (known : Member α) (value : Grammar α) (set : Member α → Entry) : Grammar Entry :=
  fun text made rest => known = .absent ∧ ∃ a, OrNull value text a rest ∧ made = set (.ofOption a)

/-- What the value of a member makes of an entry. A value that belongs to no known member is passed over. -/
def Put (e : Entry) (name : String) : Grammar Entry :=
  match name with
  | "directory" => Known e.directory Quoted fun m => { e with directory := m }
  | "file" => Known e.file Quoted fun m => { e with file := m }
  | "command" => Known e.command Quoted fun m => { e with command := m }
  | "arguments" => Known e.arguments (Listed Quoted) fun m => { e with arguments := m }
  | _ => fun text made rest => made = e ∧ Passed .value text rest

/-- What the members behind one make of an entry. -/
inductive LaterMembers : Entry → Grammar Entry
  | closed {e : Entry} {text rest : List Char} : skipBlanks text = '\x7d' :: rest → LaterMembers e text e rest
  | more {e made after : Entry} {text next value behind rest : List Char} {name : String} :
      skipBlanks text = ',' :: next → Named next name value → Put e name value made behind →
      LaterMembers made behind after rest → LaterMembers e text after rest

/-- An element that may be left out at the end of the list. -/
inductive Late {α : Type} (value : Grammar α) : Grammar (Member α)
  | absent {text rest : List Char} : skipBlanks text = ']' :: rest → Late value text .absent text
  | there {text next rest : List Char} {a : Option α} : skipBlanks text = ',' :: next → OrNull value next a rest →
      Late value text (.ofOption a) rest

/-- An object of members, behind its opening brace. -/
inductive Membered : Grammar Entry
  | none {text rest : List Char} : skipBlanks text = '\x7d' :: rest → Membered text .blank rest
  | members {text value behind rest : List Char} {name : String} {made e : Entry} : Named text name value →
      Put .blank name value made behind → LaterMembers made behind e rest → Membered text e rest

/-- A list of members, behind its opening bracket: the directory and the file, the command and the arguments. -/
inductive Positioned : Grammar Entry
  | mk {text behind next left left' left'' rest : List Char} {directory file : Option String}
      {command : Member String} {arguments : Member (List String)} : OrNull Quoted text directory behind →
      skipBlanks behind = ',' :: next → OrNull Quoted next file left → Late Quoted left command left' →
      Late (Listed Quoted) left' arguments left'' → skipBlanks left'' = ']' :: rest →
      Positioned text ⟨.ofOption directory, .ofOption file, command, arguments⟩ rest

/-- An entry. -/
inductive Described : Grammar Entry
  | object {text inner rest : List Char} {e : Entry} : skipBlanks text = '\x7b' :: inner → Membered inner e rest →
      Described text e rest
  | list {text inner rest : List Char} {e : Entry} : skipBlanks text = '[' :: inner → Positioned inner e rest →
      Described text e rest

section

variable {size fuel : Nat} {e made : Entry} {text rest : List Char}

/-- A known member is read once; a second one of its name is refused. -/
theorem readKnown_eq_ok_iff {α : Type} {reader : Reader α} {grammar : Grammar α}
    (follows : Follows size reader grammar) (short : text.length ≤ size) {known : Member α} (set : Member α → Entry) :
    readKnown known reader set text = .ok (made, rest) ↔
      ∃ value, skipBlanks text = ':' :: value ∧ Known known grammar set value made rest := by
  unfold readKnown Known
  cases known with
  | absent =>
    constructor
    · intro ok
      obtain ⟨value, colon, valued⟩ := bind_eq_ok_iff.mp ok
      obtain ⟨⟨a, behind⟩, read, same⟩ := bind_eq_ok_iff.mp valued
      have found := skipColon_eq_ok_iff.mp colon
      have room := length_lt_of_skipBlanks found
      cases same
      exact ⟨value, found, rfl, a, (follows.optional (by omega)).mp read, rfl⟩
    · rintro ⟨value, found, _, a, given, rfl⟩
      have room := length_lt_of_skipBlanks found
      refine bind_eq_ok_iff.mpr ⟨value, skipColon_eq_ok_iff.mpr found, ?_⟩
      exact bind_eq_ok_iff.mpr ⟨(a, rest), (follows.optional (by omega)).mpr given, rfl⟩
  | null => simp [Member.isPresent, throw, throwThe, MonadExceptOf.throw, bind, Except.bind]
  | given value => simp [Member.isPresent, throw, throwThe, MonadExceptOf.throw, bind, Except.bind]

/-- A member is read iff its value is one for its name. -/
theorem readMember_eq_ok_iff {name : String} (enough : text.length < fuel) :
    readMember fuel e name text = .ok (made, rest) ↔
      ∃ value, skipBlanks text = ':' :: value ∧ Put e name value made rest := by
  have texts := readText_follows text.length
  have short := Nat.le_refl text.length
  unfold readMember
  split
  case h_1 => exact readKnown_eq_ok_iff texts short fun m => { e with directory := m }
  case h_2 => exact readKnown_eq_ok_iff texts short fun m => { e with file := m }
  case h_3 => exact readKnown_eq_ok_iff texts short fun m => { e with command := m }
  case h_4 => exact readKnown_eq_ok_iff (texts.list enough) short fun m => { e with arguments := m }
  case h_5 directory file command arguments =>
    have other {value : List Char} : Put e name value made rest ↔ made = e ∧ Passed .value value rest := by
      unfold Put
      split
      case h_5 => exact Iff.rfl
      all_goals contradiction
    simp only [other]
    constructor
    · intro ok
      obtain ⟨value, colon, valued⟩ := bind_eq_ok_iff.mp ok
      obtain ⟨behind, skipped, same⟩ := bind_eq_ok_iff.mp valued
      have found := skipColon_eq_ok_iff.mp colon
      have room := length_lt_of_skipBlanks found
      cases same
      exact ⟨value, found, rfl, (skipValue_eq_ok_iff (by omega)).mp skipped⟩
    · rintro ⟨value, found, rfl, passed⟩
      have room := length_lt_of_skipBlanks found
      refine bind_eq_ok_iff.mpr ⟨value, skipColon_eq_ok_iff.mpr found, ?_⟩
      exact bind_eq_ok_iff.mpr ⟨rest, (skipValue_eq_ok_iff (by omega)).mpr passed, rfl⟩

theorem Named.length_lt {name : String} {value : List Char} (named : Named text name value) :
    value.length < text.length := by
  obtain ⟨behind, quoted, colon⟩ := named
  have room := (readText_follows 0).shorter quoted
  have room' := length_lt_of_skipBlanks colon
  omega

theorem Known.length_lt {α : Type} {reader : Reader α} {grammar : Grammar α} (follows : Follows size reader grammar)
    {m : Member α} {set : Member α → Entry} (known : Known m grammar set text made rest) :
    rest.length < text.length := by
  obtain ⟨-, a, given, -⟩ := known
  exact given.length_lt follows

theorem Put.length_lt {name : String} (put : Put e name text made rest) : rest.length < text.length := by
  have texts := readText_follows 0
  unfold Put at put
  split at put
  case h_1 => exact put.length_lt texts
  case h_2 => exact put.length_lt texts
  case h_3 => exact put.length_lt texts
  case h_4 => exact put.length_lt (texts.list Nat.one_pos)
  case h_5 => exact put.2.length_lt

theorem LaterMembers.length_lt {after : Entry} (later : LaterMembers e text after rest) :
    rest.length < text.length := by
  induction later with
  | closed closed => exact length_lt_of_skipBlanks closed
  | more comma named put _ ih =>
    have room := length_lt_of_skipBlanks comma
    have room' := named.length_lt
    have room'' := put.length_lt
    omega

/-- The rest of an object, as the grammar has it, is read to its end. -/
theorem readMembers_of_later {after : Entry} (later : LaterMembers e text after rest) (enough : text.length < fuel) :
    readMembers fuel false e text = .ok (after, rest) := by
  induction later generalizing fuel with
  | @closed e text rest closed =>
    obtain ⟨fuel, rfl⟩ : ∃ n, fuel = n + 1 := ⟨fuel - 1, by omega⟩
    rw [readMembers, nextMember_none_iff.mpr ⟨rest, closed⟩]
    simp only [readClosing_eq_ok_iff.mpr closed, Except.map]
  | @more e made after text next value behind rest name comma named put _ ih =>
    obtain ⟨colon, quoted, found⟩ := named
    have room := length_lt_of_skipBlanks comma
    have room' := (readText_follows 0).shorter quoted
    have room'' := length_lt_of_skipBlanks found
    have room''' := put.length_lt
    obtain ⟨fuel, rfl⟩ : ∃ n, fuel = n + 1 := ⟨fuel - 1, by omega⟩
    have read : readMember fuel e name colon = .ok (made, behind) :=
      (readMember_eq_ok_iff (by omega)).mpr ⟨value, found, put⟩
    rw [readMembers, nextMember_later_iff.mpr ⟨next, comma, quoted⟩]
    simp only [read]
    exact ih (by omega)

/-- Whatever is read as the rest of an object is one. -/
theorem later_of_readMembers {after : Entry} (enough : text.length < fuel)
    (ok : readMembers fuel false e text = .ok (after, rest)) : LaterMembers e text after rest := by
  induction fuel generalizing e text with
  | zero => cases ok
  | succ fuel ih =>
    rw [readMembers] at ok
    split at ok
    case h_1 => cases ok
    case h_2 =>
      obtain ⟨behind, closed, same⟩ := map_eq_ok_iff.mp ok
      cases same
      exact .closed (readClosing_eq_ok_iff.mp closed)
    case h_3 name colon found =>
      obtain ⟨next, comma, quoted⟩ := nextMember_later_iff.mp found
      have room := length_lt_of_skipBlanks comma
      have room' := (readText_follows 0).shorter quoted
      split at ok
      case h_1 => cases ok
      case h_2 made behind read =>
        obtain ⟨value, found, put⟩ := (readMember_eq_ok_iff (by omega)).mp read
        have room'' := length_lt_of_skipBlanks found
        have room''' := put.length_lt
        exact .more comma ⟨colon, quoted, found⟩ put (ih (by omega) ok)

/-! An entry written as a list. -/

theorem readOptional_skipBlanks {α : Type} (reader : Reader α) (text : List Char) :
    readOptional reader (skipBlanks text) = readOptional reader text := by
  unfold readOptional
  rw [skipBlanks_skipBlanks]

section

variable {α : Type} {size : Nat} {reader : Reader α} {grammar : Grammar α} {m : Member α}

theorem readPosition_first_iff (follows : Follows size reader grammar) (short : text.length ≤ size) :
    readPosition true reader text = .ok (m, rest) ↔ ∃ a, m = .ofOption a ∧ OrNull grammar text a rest := by
  constructor
  · intro ok
    obtain ⟨next, element, ok⟩ := bind_eq_ok_iff.mp ok
    cases next with
    | none => cases ok
    | some next =>
      obtain ⟨rfl, -⟩ := nextElement_first_iff.mp element
      obtain ⟨⟨a, behind⟩, read, same⟩ := bind_eq_ok_iff.mp ok
      rw [readOptional_skipBlanks] at read
      cases same
      exact ⟨a, rfl, (follows.optional short).mp read⟩
  · rintro ⟨a, rfl, given⟩
    refine bind_eq_ok_iff.mpr ⟨_, nextElement_first_iff.mpr ⟨rfl, follows.goesOn_optional given⟩, ?_⟩
    refine bind_eq_ok_iff.mpr ⟨(a, rest), ?_, rfl⟩
    rw [readOptional_skipBlanks]
    exact (follows.optional short).mpr given

/-- A later position stands behind a comma. -/
theorem readPosition_later_iff (follows : Follows size reader grammar) (short : text.length ≤ size) :
    readPosition false reader text = .ok (m, rest) ↔
      ∃ next a, skipBlanks text = ',' :: next ∧ m = .ofOption a ∧ OrNull grammar next a rest := by
  constructor
  · intro ok
    obtain ⟨next, element, ok⟩ := bind_eq_ok_iff.mp ok
    cases next with
    | none => cases ok
    | some next =>
      obtain ⟨next, comma, rfl, -⟩ := nextElement_later_iff.mp element
      have room := length_lt_of_skipBlanks comma
      obtain ⟨⟨a, behind⟩, read, same⟩ := bind_eq_ok_iff.mp ok
      rw [readOptional_skipBlanks] at read
      cases same
      exact ⟨next, a, comma, rfl, (follows.optional (by omega)).mp read⟩
  · rintro ⟨next, a, comma, rfl, given⟩
    have room := length_lt_of_skipBlanks comma
    refine bind_eq_ok_iff.mpr ⟨_, nextElement_later_iff.mpr ⟨next, comma, rfl, follows.goesOn_optional given⟩, ?_⟩
    refine bind_eq_ok_iff.mpr ⟨(a, rest), ?_, rfl⟩
    rw [readOptional_skipBlanks]
    exact (follows.optional (by omega)).mpr given

/-- A position added later may be missing altogether. -/
theorem readLatePosition_eq_ok_iff (follows : Follows size reader grammar) (short : text.length ≤ size) :
    readLatePosition reader text = .ok (m, rest) ↔ Late grammar text m rest := by
  constructor
  · intro ok
    obtain ⟨next, element, ok⟩ := bind_eq_ok_iff.mp ok
    cases next with
    | none =>
      obtain ⟨tail, closed⟩ := nextElement_none_iff.mp element
      cases ok
      exact .absent closed
    | some next =>
      obtain ⟨next, comma, rfl, -⟩ := nextElement_later_iff.mp element
      have room := length_lt_of_skipBlanks comma
      obtain ⟨⟨a, behind⟩, read, same⟩ := bind_eq_ok_iff.mp ok
      rw [readOptional_skipBlanks] at read
      cases same
      exact .there comma ((follows.optional (by omega)).mp read)
  · rintro (closed | ⟨comma, given⟩)
    · exact bind_eq_ok_iff.mpr ⟨none, nextElement_none_iff.mpr ⟨_, closed⟩, rfl⟩
    · have room := length_lt_of_skipBlanks comma
      refine bind_eq_ok_iff.mpr ⟨_, nextElement_later_iff.mpr ⟨_, comma, rfl, follows.goesOn_optional given⟩, ?_⟩
      refine bind_eq_ok_iff.mpr ⟨(_, rest), ?_, rfl⟩
      rw [readOptional_skipBlanks]
      exact (follows.optional (by omega)).mpr given

theorem Late.length_le (follows : Follows size reader grammar) (late : Late grammar text m rest) :
    rest.length ≤ text.length := by
  cases late with
  | absent => exact Nat.le_refl _
  | there comma given =>
    have room := length_lt_of_skipBlanks comma
    have room' := given.length_lt follows
    omega

end

/-- An entry written as an object is read iff the grammar admits it. -/
theorem readMembers_eq_ok_iff (enough : text.length < fuel) :
    readMembers fuel true .blank text = .ok (e, rest) ↔ Membered text e rest := by
  obtain ⟨fuel, rfl⟩ : ∃ n, fuel = n + 1 := ⟨fuel - 1, by omega⟩
  constructor
  · intro ok
    rw [readMembers] at ok
    split at ok
    case h_1 => cases ok
    case h_2 =>
      obtain ⟨behind, closed, same⟩ := map_eq_ok_iff.mp ok
      cases same
      exact .none (readClosing_eq_ok_iff.mp closed)
    case h_3 name colon found =>
      have quoted := nextMember_first_iff.mp found
      have room := (readText_follows 0).shorter quoted
      split at ok
      case h_1 => cases ok
      case h_2 made behind read =>
        obtain ⟨value, found, put⟩ := (readMember_eq_ok_iff (by omega)).mp read
        have room' := length_lt_of_skipBlanks found
        have room'' := put.length_lt
        exact .members ⟨colon, quoted, found⟩ put (later_of_readMembers (by omega) ok)
  · intro membered
    cases membered with
    | none closed =>
      rw [readMembers, nextMember_none_iff.mpr ⟨rest, closed⟩]
      simp only [readClosing_eq_ok_iff.mpr closed, Except.map]
    | @members _ value behind _ name made _ named put later =>
      obtain ⟨colon, quoted, found⟩ := named
      have room := (readText_follows 0).shorter quoted
      have room' := length_lt_of_skipBlanks found
      have room'' := put.length_lt
      have read : readMember fuel .blank name colon = .ok (made, behind) :=
        (readMember_eq_ok_iff (by omega)).mpr ⟨value, found, put⟩
      rw [readMembers, nextMember_first_iff.mpr quoted]
      simp only [read]
      exact readMembers_of_later later (by omega)

/-- An entry written as a list is read iff the grammar admits it. -/
theorem readPositions_eq_ok_iff (enough : text.length < fuel) :
    readPositions fuel text = .ok (e, rest) ↔ Positioned text e rest := by
  have texts := readText_follows text.length
  have lists := texts.list enough
  constructor
  · intro ok
    obtain ⟨⟨directory, behind⟩, first, ok⟩ := bind_eq_ok_iff.mp ok
    obtain ⟨⟨file, left⟩, second, ok⟩ := bind_eq_ok_iff.mp ok
    obtain ⟨⟨command, left'⟩, third, ok⟩ := bind_eq_ok_iff.mp ok
    obtain ⟨⟨arguments, left''⟩, fourth, ok⟩ := bind_eq_ok_iff.mp ok
    obtain ⟨last, closed, same⟩ := bind_eq_ok_iff.mp ok
    obtain ⟨directory, rfl, given⟩ := (readPosition_first_iff texts (Nat.le_refl _)).mp first
    have room := given.length_lt texts
    obtain ⟨next, file, comma, rfl, given'⟩ := (readPosition_later_iff texts (by omega)).mp second
    have room' := length_lt_of_skipBlanks comma
    have room'' := given'.length_lt texts
    have late := (readLatePosition_eq_ok_iff texts (by omega)).mp third
    have room''' := late.length_le texts
    have late' := (readLatePosition_eq_ok_iff lists (by omega)).mp fourth
    cases same
    exact .mk given comma given' late late' (readClosing_eq_ok_iff.mp closed)
  · rintro ⟨given, comma, given', late, late', closed⟩
    have room := given.length_lt texts
    have room' := length_lt_of_skipBlanks comma
    have room'' := given'.length_lt texts
    have room''' := late.length_le texts
    refine bind_eq_ok_iff.mpr ⟨_, (readPosition_first_iff texts (Nat.le_refl _)).mpr ⟨_, rfl, given⟩, ?_⟩
    refine bind_eq_ok_iff.mpr ⟨_, (readPosition_later_iff texts (by omega)).mpr ⟨_, _, comma, rfl, given'⟩, ?_⟩
    refine bind_eq_ok_iff.mpr ⟨_, (readLatePosition_eq_ok_iff texts (by omega)).mpr late, ?_⟩
    refine bind_eq_ok_iff.mpr ⟨_, (readLatePosition_eq_ok_iff lists (by omega)).mpr late', ?_⟩
    exact bind_eq_ok_iff.mpr ⟨_, readClosing_eq_ok_iff.mpr closed, rfl⟩

theorem Membered.length_lt (membered : Membered text e rest) : rest.length < text.length := by
  cases membered with
  | none closed => exact length_lt_of_skipBlanks closed
  | members named put later =>
    have room := named.length_lt
    have room' := put.length_lt
    have room'' := later.length_lt
    omega

theorem Positioned.length_lt (positioned : Positioned text e rest) : rest.length < text.length := by
  obtain ⟨given, comma, given', late, late', closed⟩ := positioned
  have texts := readText_follows 0
  have room := given.length_lt texts
  have room' := length_lt_of_skipBlanks comma
  have room'' := given'.length_lt texts
  have room''' := late.length_le texts
  have room'''' := late'.length_le (texts.list Nat.one_pos)
  have room''''' := length_lt_of_skipBlanks closed
  omega

/-- Entries are read by their grammar. -/
theorem read_follows (enough : size < fuel) : Follows size (read fuel) Described where
  reads {text} short e rest := by
    unfold read
    split
    case h_1 inner found =>
      have room := length_lt_of_skipBlanks found
      rw [readMembers_eq_ok_iff (by omega)]
      constructor
      · exact .object found
      · rintro (⟨found', membered⟩ | ⟨found', -⟩)
        · rw [found] at found'
          exact (List.cons.inj found').2 ▸ membered
        · rw [found] at found'
          exact absurd (List.cons.inj found').1 (by decide)
    case h_2 inner found =>
      have room := length_lt_of_skipBlanks found
      rw [readPositions_eq_ok_iff (by omega)]
      constructor
      · exact .list found
      · rintro (⟨found', -⟩ | ⟨found', positioned⟩)
        · rw [found] at found'
          exact absurd (List.cons.inj found').1 (by decide)
        · rw [found] at found'
          exact (List.cons.inj found').2 ▸ positioned
    case h_3 object list =>
      constructor
      · intro ok
        cases ok
      · rintro (⟨found, -⟩ | ⟨found, -⟩)
        · exact absurd found (object _)
        · exact absurd found (list _)
  blanks text := by
    unfold read
    rw [skipBlanks_skipBlanks]
  head := by
    rintro text e rest (⟨found, -⟩ | ⟨found, -⟩) <;> exact ⟨_, _, found, by decide⟩
  shorter := by
    rintro text e rest (⟨found, membered⟩ | ⟨found, positioned⟩)
    · have room := length_lt_of_skipBlanks found
      have room' := membered.length_lt
      omega
    · have room := length_lt_of_skipBlanks found
      have room' := positioned.length_lt
      omega

/-- A document of entries: a list of them, and blanks behind it. -/
def Document (text : String) (entries : List Entry) : Prop :=
  ∃ rest, Listed Described text.toList entries rest ∧ skipBlanks rest = []

/-- **A document is read as what it describes.** -/
theorem readAll_eq_ok_iff {text : String} {entries : List Entry} :
    readAll text = .ok entries ↔ Document text entries := by
  have lists := (@read_follows _ (text.toList.length + 1) (Nat.lt_succ_self _)).list (Nat.lt_succ_self _)
  unfold readAll readDocument Document
  dsimp only
  constructor
  · intro ok
    split at ok
    case h_1 => cases ok
    case h_2 all rest read =>
      split at ok
      case isTrue blank =>
        cases ok
        exact ⟨rest, (lists.reads (Nat.le_refl _)).mp read, List.isEmpty_iff.mp blank⟩
      case isFalse => cases ok
  · rintro ⟨rest, listed, blank⟩
    rw [(lists.reads (Nat.le_refl _)).mpr listed]
    simp [blank]

end

end Entry

end CompileDb
