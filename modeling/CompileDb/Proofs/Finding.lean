import CompileDb.Utility.Edit

/-!
# What regular expressions find

What a search finds is a match: the text can be taken apart as the expression says (`Regex.Matches`), from the place
where the match begins to the place behind it. Each way to go on in the search is one way of taking apart
(`Regex.matches_of_run`). Nothing is found earlier in the text than what is found first.
-/

namespace CompileDb.Utility

namespace Place

/-- The place behind one more character. -/
def past (p : Place) (c : Char) (rest : List Char) : Place := { p with before := c :: p.before, after := rest }

/-- The place behind some more text. -/
def beyond (p : Place) (text rest : List Char) : Place := { p with before := text.reverse ++ p.before, after := rest }

/-- The text on one side of a place goes on with a word. -/
def isInWord (side : List Char) : Bool := side.head?.any Regex.isWordChar

end Place

namespace Regex

/-- A character is one of a set, or the set has it in the other case and case does not matter. -/
def isOneOf (ignoresCase : Bool) (members : List Shell.Member) (c : Char) : Bool :=
  members.any (Shell.Member.accepts c) ||
    (ignoresCase && (members.any (Shell.Member.accepts c.toLower) || members.any (Shell.Member.accepts c.toUpper)))

/-- An expression matches from a place to a place behind it. -/
inductive Matches (ignoresCase : Bool) : Regex → Place → Place → Prop
  | empty {p : Place} : Matches ignoresCase .empty p p
  | char {p : Place} {c d : Char} {rest : List Char} : p.after = d :: rest → same ignoresCase c d = true →
      Matches ignoresCase (.char c) p (p.past d rest)
  | any {p : Place} {c : Char} {rest : List Char} : p.after = c :: rest → Matches ignoresCase .any p (p.past c rest)
  | oneOf {p : Place} {but : Bool} {members : List Shell.Member} {c : Char} {rest : List Char} : p.after = c :: rest →
      (isOneOf ignoresCase members c != but) = true → Matches ignoresCase (.oneOf but members) p (p.past c rest)
  | start {p : Place} : p.before = [] → Matches ignoresCase .start p p
  | finish {p : Place} : p.after = [] → Matches ignoresCase .finish p p
  | wordStart {p : Place} : Place.isInWord p.before = false → Place.isInWord p.after = true →
      Matches ignoresCase .wordStart p p
  | wordEnd {p : Place} : Place.isInWord p.before = true → Place.isInWord p.after = false →
      Matches ignoresCase .wordEnd p p
  | wordEdge {p : Place} : Place.isInWord p.before ≠ Place.isInWord p.after → Matches ignoresCase .wordEdge p p
  | sequence {first second : Regex} {p mid q : Place} : Matches ignoresCase first p mid →
      Matches ignoresCase second mid q → Matches ignoresCase (.sequence first second) p q
  | first {first second : Regex} {p q : Place} : Matches ignoresCase first p q →
      Matches ignoresCase (.either first second) p q
  | second {first second : Regex} {p q : Place} : Matches ignoresCase second p q →
      Matches ignoresCase (.either first second) p q
  | done {r : Regex} {most : Option Nat} {p : Place} : Matches ignoresCase (.repeated r 0 most) p p
  | more {r : Regex} {least : Nat} {most : Option Nat} {p mid q : Place} : most ≠ some 0 →
      Matches ignoresCase r p mid → Matches ignoresCase (.repeated r (least - 1) (most.map (· - 1))) mid q →
      Matches ignoresCase (.repeated r least most) p q
  | group {n : Nat} {r : Regex} {p q : Place} : Matches ignoresCase r p q →
      Matches ignoresCase (.group n r) p
        { q with groups := (n, (q.before.take (p.after.length - q.after.length)).reverse) :: q.groups }
  | again {n : Nat} {p : Place} {taken rest : List Char} : p.after = taken ++ rest →
      taken.length = ((p.groups.lookup n).getD []).length →
      (taken.zip ((p.groups.lookup n).getD [])).all (fun pair => same ignoresCase pair.1 pair.2) = true →
      Matches ignoresCase (.again n) p (p.beyond taken rest)

variable {ignoresCase : Bool} {r : Regex} {p q : Place}

/-- A step takes one character that is accepted. -/
theorem step_eq_some {accepts : Char → Bool} {next : Place → Option Place} (stepped : step p accepts next = some q) :
    ∃ c rest, p.after = c :: rest ∧ accepts c = true ∧ next (p.past c rest) = some q := by
  unfold step at stepped
  split at stepped
  case h_1 c rest after =>
    split at stepped
    case isTrue accepted => exact ⟨c, rest, after, accepted, stepped⟩
    case isFalse => cases stepped
  case h_2 => cases stepped

/-- Of two ways the one that leads farther is taken, or the only one. -/
theorem run_either_eq_some {fuel : Nat} {first second : Regex} {next : Place → Option Place}
    (found : run ignoresCase (fuel + 1) (.either first second) p next = some q) :
    run ignoresCase fuel first p next = some q ∨ run ignoresCase fuel second p next = some q := by
  rw [run] at found
  split at found
  case h_1 a b first second =>
    split at found
    case isTrue => exact .inl (first.trans found)
    case isFalse => exact .inr (second.trans found)
  case h_2 a first second => exact .inl (first.trans found)
  case h_3 => exact .inr found

/-- A repetition goes on if it may, and not without getting ahead or having to; or it ends where it is. -/
theorem run_repeated_eq_some {fuel : Nat} {least : Nat} {most : Option Nat} {next : Place → Option Place}
    (found : run ignoresCase (fuel + 1) (.repeated r least most) p next = some q) :
    (most ≠ some 0 ∧
      run ignoresCase fuel r p (fun mid =>
        if mid.after.length = p.after.length ∧ least = 0 then none
        else run ignoresCase fuel (.repeated r (least - 1) (most.map (· - 1))) mid next) = some q) ∨
      (least = 0 ∧ next p = some q) := by
  rw [run] at found
  split at found
  case h_1 a more => exact .inl (Option.ite_none_left_eq_some.1 (more.trans found))
  case h_2 => exact .inr (Option.ite_none_right_eq_some.1 found)

/-- A group is matched again by a text that is like the one it has matched. -/
theorem matches_of_run_again {fuel n : Nat} {next : Place → Option Place}
    (found : run ignoresCase (fuel + 1) (.again n) p next = some q) :
    ∃ mid, Matches ignoresCase (.again n) p mid ∧ next mid = some q := by
  rw [run] at found
  obtain ⟨like, found⟩ := Option.ite_none_right_eq_some.1 found
  obtain ⟨length, same⟩ := Bool.and_eq_true_iff.1 like
  have split := (List.take_append_drop ((p.groups.lookup n).getD []).length p.after).symm
  exact ⟨_, .again split (by simpa using length) (by simpa using same), found⟩

/-- **What the search goes through is a match.** -/
theorem matches_of_run {fuel : Nat} {next : Place → Option Place} (found : run ignoresCase fuel r p next = some q) :
    ∃ mid, Matches ignoresCase r p mid ∧ next mid = some q := by
  induction fuel generalizing r p next q with
  | zero => cases found
  | succ fuel ih =>
    cases r with
    | empty => exact ⟨p, .empty, found⟩
    | char c =>
      obtain ⟨d, rest, after, accepted, found⟩ := step_eq_some found
      exact ⟨_, .char after accepted, found⟩
    | any =>
      obtain ⟨c, rest, after, -, found⟩ := step_eq_some found
      exact ⟨_, .any after, found⟩
    | oneOf but members =>
      obtain ⟨c, rest, after, accepted, found⟩ := step_eq_some found
      exact ⟨_, .oneOf after accepted, found⟩
    | start =>
      obtain ⟨front, found⟩ := Option.ite_none_right_eq_some.1 found
      exact ⟨p, .start (List.isEmpty_iff.1 front), found⟩
    | finish =>
      obtain ⟨back, found⟩ := Option.ite_none_right_eq_some.1 found
      exact ⟨p, .finish (List.isEmpty_iff.1 back), found⟩
    | wordStart =>
      obtain ⟨edge, found⟩ := Option.ite_none_right_eq_some.1 found
      obtain ⟨before, after⟩ := Bool.and_eq_true_iff.1 edge
      exact ⟨p, .wordStart ((Bool.not_eq_true' _).mp before) after, found⟩
    | wordEnd =>
      obtain ⟨edge, found⟩ := Option.ite_none_right_eq_some.1 found
      obtain ⟨before, after⟩ := Bool.and_eq_true_iff.1 edge
      exact ⟨p, .wordEnd before ((Bool.not_eq_true' _).mp after), found⟩
    | wordEdge =>
      obtain ⟨edge, found⟩ := Option.ite_none_right_eq_some.1 found
      exact ⟨p, .wordEdge (bne_iff_ne.1 edge), found⟩
    | sequence first second =>
      obtain ⟨mid, matched, found⟩ := ih found
      obtain ⟨last, matched', found⟩ := ih found
      exact ⟨last, .sequence matched matched', found⟩
    | either first second =>
      rcases run_either_eq_some found with found | found
      · obtain ⟨mid, matched, found⟩ := ih found
        exact ⟨mid, .first matched, found⟩
      · obtain ⟨mid, matched, found⟩ := ih found
        exact ⟨mid, .second matched, found⟩
    | repeated r least most =>
      rcases run_repeated_eq_some found with ⟨bound, found⟩ | ⟨rfl, ended⟩
      · obtain ⟨mid, matched, found⟩ := ih found
        obtain ⟨last, matched', found⟩ := ih (Option.ite_none_left_eq_some.1 found).2
        exact ⟨last, .more bound matched matched', found⟩
      · exact ⟨p, .done, ended⟩
    | group n r =>
      obtain ⟨mid, matched, found⟩ := ih found
      exact ⟨_, .group matched, found⟩
    | again n => exact matches_of_run_again found

/-- A match takes a piece of the text that is before it, and the place behind it is behind that piece. -/
theorem Matches.taken (matched : Matches ignoresCase r p q) :
    ∃ taken, p.after = taken ++ q.after ∧ q.before = taken.reverse ++ p.before := by
  induction matched with
  | empty | start | finish | wordStart | wordEnd | wordEdge | done => exact ⟨[], rfl, rfl⟩
  | @char _ _ d _ after _ => exact ⟨[d], after, rfl⟩
  | @any _ c _ after | @oneOf _ _ _ c _ after _ => exact ⟨[c], after, rfl⟩
  | sequence _ _ first second | more _ _ _ first second =>
    obtain ⟨taken, after, before⟩ := first
    obtain ⟨taken', after', before'⟩ := second
    exact ⟨taken ++ taken', by rw [after, after', List.append_assoc], by rw [before', before]; simp⟩
  | first _ ih | second _ ih | group _ ih => exact ih
  | again after => exact ⟨_, after, rfl⟩

/-- Without regard to groups, an expression made of a text matches just that text. -/
theorem matches_ofText_iff {text : List Char} :
    Matches false (ofText text) p q ↔ p.after = text ++ q.after ∧ q = p.beyond text q.after := by
  induction text generalizing p with
  | nil =>
    constructor
    · rintro ⟨⟩
      exact ⟨rfl, rfl⟩
    · rintro ⟨after, place⟩
      obtain rfl : q = p := by rw [place, ← List.nil_append q.after, ← after]; rfl
      exact .empty
  | cons c text ih =>
    constructor
    · rintro (_ | _ | _ | _ | _ | _ | _ | _ | _ | ⟨_ | ⟨after, accepted⟩, rest⟩)
      obtain ⟨after', place⟩ := ih.1 rest
      obtain rfl : c = _ := by simpa [same] using accepted
      exact ⟨after.trans (congrArg (c :: ·) after'), by rw [place]; simp [Place.beyond, Place.past]⟩
    · rintro ⟨after, place⟩
      refine .sequence (.char after (by simp [same])) (ih.2 ⟨rfl, ?_⟩)
      rw [place]
      simp [Place.beyond, Place.past]

/-- What the backtracking matcher takes, the expression matches. -/
theorem matches_of_matchAt (found : r.matchAt ignoresCase p = some q) :
    Matches ignoresCase r { p with groups := [] } q := by
  obtain ⟨mid, matched, stop⟩ := matches_of_run found
  cases stop
  exact matched

/-- **What is found is the first match.** The text divides into what comes before the match, what it takes and the rest;
and from none of the places before it is there a match. -/
theorem find_eq_some {fuel : Nat} {skipped before taken : List Char}
    (found : r.find ignoresCase fuel p skipped = some (before, taken, q)) :
    ∃ passed, before = skipped.reverse ++ passed ∧ p.after = passed ++ (taken ++ q.after) ∧
      Matches ignoresCase r { p.beyond passed (taken ++ q.after) with groups := [] } q ∧
      ∀ front back, passed = front ++ back → back ≠ [] →
        r.matchAt ignoresCase (p.beyond front (back ++ (taken ++ q.after))) = none := by
  induction fuel generalizing p skipped with
  | zero => cases found
  | succ fuel ih =>
    rw [find] at found
    split at found
    case h_1 last here =>
      cases found
      have matched := matches_of_matchAt here
      obtain ⟨piece, after, -⟩ := matched.taken
      have after : p.after = piece ++ q.after := after
      have piece_eq : p.after.take (p.after.length - q.after.length) = piece := by
        rw [after, List.length_append, Nat.add_sub_cancel, List.take_left]
      rw [piece_eq]
      refine ⟨[], by simp, after, ?_, fun front back split rest => ?_⟩
      · rw [← after]
        exact matched
      · exact absurd (List.append_eq_nil_iff.1 split.symm).2 rest
    case h_2 nowhere =>
      split at found
      case h_1 => cases found
      case h_2 c rest after =>
        obtain ⟨passed, before_eq, rest_eq, matched, earlier⟩ := ih found
        refine ⟨c :: passed, by simpa using before_eq, by rw [after, List.cons_append, ← rest_eq], ?_, ?_⟩
        · simpa [Place.beyond] using matched
        · rintro (_ | ⟨d, front⟩) back split rest_ne
          · obtain rfl : back = c :: passed := split.symm
            rw [List.cons_append, ← rest_eq, ← after]
            exact nowhere
          · obtain ⟨rfl, tail⟩ := List.cons.inj split
            simpa [Place.beyond] using earlier front back tail rest_ne

/-- Where nothing is found there is no match, and nothing is found behind the next character either. -/
theorem find_succ_eq_none {fuel : Nat} {skipped : List Char} (lost : r.find ignoresCase (fuel + 1) p skipped = none) :
    r.matchAt ignoresCase p = none ∧
      ∀ c rest, p.after = c :: rest → r.find ignoresCase fuel (p.past c rest) (c :: skipped) = none := by
  rw [find] at lost
  cases here : r.matchAt ignoresCase p with
  | some q => rw [here] at lost; cases lost
  | none =>
    refine ⟨rfl, fun c rest after => ?_⟩
    rw [here, after] at lost
    exact lost

/-- With enough fuel, nothing is found only when there is no match from any place of the text. -/
theorem find_eq_none {fuel : Nat} {skipped : List Char} (enough : p.after.length < fuel)
    (lost : r.find ignoresCase fuel p skipped = none) {front back : List Char} (split : p.after = front ++ back) :
    r.matchAt ignoresCase (p.beyond front back) = none := by
  induction front generalizing fuel p skipped with
  | nil =>
    obtain ⟨fuel, rfl⟩ := Nat.exists_eq_succ_of_ne_zero (Nat.ne_of_gt (Nat.zero_lt_of_lt enough))
    have after : p.after = back := split
    rw [← after]
    exact (find_succ_eq_none lost).1
  | cons c front ih =>
    obtain ⟨fuel, rfl⟩ := Nat.exists_eq_succ_of_ne_zero (Nat.ne_of_gt (Nat.zero_lt_of_lt enough))
    have enough : (front ++ back).length < fuel := by
      rw [split] at enough
      exact Nat.lt_of_succ_lt_succ enough
    simpa [Place.beyond, Place.past] using ih enough ((find_succ_eq_none lost).2 c (front ++ back) split) rfl

end Regex

/-! ## Replacing -/

namespace Edit.State

variable {r : Regex} {s : Substitution} {fuel count : Nat} {afterMatch : Bool} {p : Place}

/-- What comes behind a match: the match may have taken nothing, and then a character is passed over. -/
def behind (r : Regex) (s : Substitution) (fuel count : Nat) (m : List Char) (q : Place) : List Char × Bool :=
  match m.isEmpty, q.after with
  | false, _ => replaceFrom r s fuel count true q
  | true, [] => ([], false)
  | true, c :: rest => Prod.map (c :: ·) id (replaceFrom r s fuel count false (q.past c rest))

/-- One round of the substitution: what is skipped, what replaces the match, and the rest. -/
theorem replaceFrom_of_find {skipped m : List Char} {q : Place}
    (found : r.find s.ignoresCase (p.after.length + 1) p [] = some (skipped, m, q)) :
    replaceFrom r s (fuel + 1) count afterMatch p =
      if m.isEmpty && skipped.isEmpty && afterMatch then behind r s fuel count m q
      else if count < s.firstMatch then Prod.map (skipped ++ m ++ ·) id (behind r s fuel (count + 1) m q)
      else if s.all then (skipped ++ filled m q.groups s.replacement ++ (behind r s fuel (count + 1) m q).1, true)
      else (skipped ++ filled m q.groups s.replacement ++ q.after, true) := by
  rw [replaceFrom, found]
  simp only [behind]
  cases m.isEmpty <;> cases q.after <;> simp [Prod.map, Place.past]

/-- **A text is as it was if matches are replaced with themselves, or none is.** -/
theorem replaceFrom_eq
    (same : (∀ m groups, filled m groups s.replacement = m) ∨ (replaceFrom r s fuel count afterMatch p).2 = false) :
    (replaceFrom r s fuel count afterMatch p).1 = p.after := by
  induction fuel generalizing count afterMatch p with
  | zero => rfl
  | succ fuel ih =>
    cases found : r.find s.ignoresCase (p.after.length + 1) p [] with
    | none => rw [replaceFrom, found]
    | some result =>
      obtain ⟨skipped, m, q⟩ := result
      obtain ⟨passed, rfl, after, -, -⟩ := Regex.find_eq_some found
      have later {n : Nat}
          (same : (∀ m groups, filled m groups s.replacement = m) ∨ (behind r s fuel n m q).2 = false) :
          (behind r s fuel n m q).1 = q.after := by
        unfold behind at same ⊢
        split at same
        case h_1 => exact ih same
        case h_2 ended => exact ended.symm
        case h_3 ended =>
          rw [ended]
          exact congrArg (List.cons _) (ih same)
      rw [replaceFrom_of_find found] at same ⊢
      rw [after]
      by_cases nothing : (m.isEmpty && skipped.isEmpty && afterMatch) = true
      · obtain ⟨⟨rfl, rfl⟩, -⟩ : (m = [] ∧ skipped = []) ∧ afterMatch = true := by simpa using nothing
        rw [if_pos nothing] at same ⊢
        exact later same
      · rw [if_neg nothing] at same ⊢
        by_cases early : count < s.firstMatch
        · rw [if_pos early] at same ⊢
          exact (congrArg (skipped ++ m ++ ·) (later same)).trans (List.append_assoc ..)
        · rw [if_neg early] at same ⊢
          have themselves := same.resolve_right (by split <;> simp)
          rw [themselves]
          split
          · exact (congrArg (skipped ++ m ++ ·) (later (.inl themselves))).trans (List.append_assoc ..)
          · exact List.append_assoc ..

/-- The sign for the whole match replaces it with itself. -/
theorem filled_whole (m : List Char) (groups : List (Nat × List Char)) : filled m groups [.group 0] = m := by
  simp [filled]

end Edit.State

end CompileDb.Utility
