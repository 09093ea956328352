import CompileDb.Utility.Place
import CompileDb.Utility.Regex

/-!
# Searching

A utility that searches for patterns in lines.
-/

namespace CompileDb.Utility

open Host

/-- What is searched for. -/
structure Wanted where
  patterns : List Regex
  ignoresCase : Bool
  inverted : Bool
  wholeLine : Bool
  wholeWord : Bool

namespace Wanted

/-- The pattern with what it has to stand between. -/
def framed (w : Wanted) (r : Regex) : Regex :=
  if w.wholeLine then .sequence .start (.sequence (.group 100 r) .finish)
  else if w.wholeWord then .sequence .wordEdge (.sequence (.group 100 r) .wordEdge)
  else r

/-- The first of the matches in a text from a place on: what is before it, the match and the place behind it. -/
def find? (w : Wanted) (p : Place) : Option (List Char × List Char × Place) :=
  let found := w.patterns.filterMap fun r => (w.framed r).find w.ignoresCase (p.after.length + 1) p []
  found.foldl (fun best m => match best with
    | none => some m
    | some b =>
      if m.1.length < b.1.length || (m.1.length = b.1.length && b.2.1.length < m.2.1.length) then some m else some b) none

def accepts (w : Wanted) (line : List Char) : Bool := (w.find? ⟨[], line, []⟩).isSome != w.inverted

def matchesOf (w : Wanted) : Nat → Place → List (List Char)
  | 0, _ => []
  | fuel + 1, p =>
    match w.find? p with
    | none => []
    | some (_, m, q) =>
      if m.isEmpty then
        match q.after with
        | [] => []
        | c :: rest => matchesOf w fuel { q with before := c :: q.before, after := rest }
      else m :: matchesOf w fuel q

end Wanted

def filesBelow (files : FileTree) : Nat → String → List String
  | 0, _ => []
  | fuel + 1, path =>
    match nodeAt files true path with
    | .ok (trail, .directory) =>
      ((files.names trail).map Text.octets).flatMap fun n => filesBelow files fuel (inside path n)
    | _ => [path]

/-- A line with its number. -/
structure Numbered where
  line : List Char
  number : Nat
  /-- The line is wanted. -/
  isChosen : Bool

/-- Lines with their numbers, of which at most so many are wanted. -/
def numbered (w : Wanted) (most : Option Nat) (lines : List (List Char)) : List Numbered :=
  let step (state : Option Nat × List Numbered) (line : List Char × Nat) : Option Nat × List Numbered :=
    let (left, seen) := state
    let isChosen := left ≠ some 0 && w.accepts line.1
    (if isChosen then left.map (· - 1) else left, ⟨line.1, line.2 + 1, isChosen⟩ :: seen)
  (lines.zipIdx.foldl step (most, [])).2.reverse

/-- The lines that come at most so many places before or after one that is wanted. -/
def withNearby (before after : Nat) (lines : List Numbered) : List Numbered :=
  -- each pass turns the list round
  let pass (reach : Nat) (lines : List (Numbered × Bool)) : List (Numbered × Bool) :=
    (lines.foldl (fun (state : Nat × List (Numbered × Bool)) l =>
      let (left, seen) := state
      if l.1.isChosen then (reach, (l.1, true) :: seen) else (left - 1, (l.1, l.2 || decide (0 < left)) :: seen)) (0, [])).2
  ((pass before (pass after (lines.map (·, false)))).filter Prod.snd).map Prod.fst

/-- Searches for patterns in lines. -/
def grep (mode : Char) (inv : Invocation) : Action Nat :=
  withOptions ⟨"EFGPviwxclLnqsohHrRabUzy", "emABC", [("extended-regexp", 'E'), ("fixed-strings", 'F'), ("invert-match", 'v'),
      ("ignore-case", 'i'), ("word-regexp", 'w'), ("line-regexp", 'x'), ("count", 'c'), ("files-with-matches", 'l'),
      ("files-without-match", 'L'), ("line-number", 'n'), ("quiet", 'q'), ("silent", 'q'), ("no-messages", 's'),
      ("only-matching", 'o'), ("no-filename", 'h'), ("with-filename", 'H'), ("recursive", 'r'), ("regexp", 'e'),
      ("max-count", 'm'), ("after-context", 'A'), ("before-context", 'B'), ("context", 'C')]⟩ 2 inv fun options operands => do
    let mode := ((options.filter fun (c, _) => c ∈ ['E', 'F', 'G']).getLast?).elim mode Prod.fst
    let given := (options.filter (·.1 = 'e')).map Prod.snd
    let (texts, operands) := if given.isEmpty then (operands.take 1, operands.drop 1) else (given, operands)
    if texts.isEmpty then
      let _ ← write 2
        s!"Usage: {inv.name} [OPTION]... PATTERNS [FILE]...\nTry \x27{inv.name} --help\x27 for more information.\n".toList
      return 2
    let patterns := (texts.flatMap fun t => t.splitOn "\n").mapM fun t =>
      if mode = 'F' then .ok (Regex.ofText t.toList) else Regex.ofPattern (mode = 'E') t.toList
    match patterns with
    | .error text =>
      complain inv.name text
      return 2
    | .ok patterns =>
      let has (c : Char) : Bool := has options c
      let w : Wanted := ⟨patterns, has 'i' || has 'y', has 'v', has 'x', has 'w'⟩
      let deep := has 'r' || has 'R'
      let files ← Action.files
      let operands := if operands.isEmpty && deep then ["."] else if operands.isEmpty then ["-"] else operands
      let searched := if deep then operands.flatMap (filesBelow files 4096) else operands
      let titled := (1 < operands.length || deep || has 'H') && !has 'h'
      let count (c : Char) : Option Nat := (valueOf? options c).bind fun v => Shell.decimal? v.toList
      let linesBefore := ((count 'B').or (count 'C')).getD 0
      let linesAfter := ((count 'A').or (count 'C')).getD 0
      let most := (valueOf? options 'm').bind fun v => Shell.decimal? v.toList
      let contents ← searched.mapM fun operand => do return (operand, ← readOperand operand)
      let title (operand : String) : String := if operand = "-" then "(standard input)" else operand
      let before (operand : String) : String := if titled then title operand ++ ":" else ""
      let one : String × Except Refusal (List Char) → Bool × List Char × List String
        | (operand, .error r) => (false, [], if has 's' then [] else [s!"{operand}: {r.message}"])
        | (operand, .ok text) =>
          let all := numbered w most (Lines.ofText text).all
          let lines := all.filter Numbered.isChosen
          let found := !lines.isEmpty
          let out :=
            if has 'q' then ""
            else if has 'l' then if found then title operand ++ "\n" else ""
            else if has 'L' then if found then "" else title operand ++ "\n"
            else if has 'c' then s!"{before operand}{lines.length}\n"
            else
              let front (l : Numbered) (sign : String) : String :=
                (if titled then title operand ++ sign else "") ++ (if has 'n' then s!"{l.number}{sign}" else "")
              let parts (l : Numbered) : List String :=
                if w.inverted then []
                else (w.matchesOf (l.line.length + 1) ⟨[], l.line, []⟩).map fun m => front l ":" ++ String.ofList m ++ "\n"
              let whole (l : Numbered) : String := front l (if l.isChosen then ":" else "-") ++ String.ofList l.line ++ "\n"
              if has 'o' then String.join (lines.flatMap parts)
              else if linesBefore = 0 && linesAfter = 0 then String.join (lines.map whole)
              else
                let shown := withNearby linesBefore linesAfter all
                let numbers := 0 :: shown.map Numbered.number
                String.join ((shown.zip numbers).map fun (l, previous) =>
                  if 0 < previous && previous + 1 < l.number then "--\n" ++ whole l else whole l)
          (found, out.toList, [])
      let results := contents.map one
      let faults := results.flatMap fun (_, _, f) => f
      let failed := contents.any fun (_, content) => !content.isOk
      let found := results.any (·.1)
      let status := if has 'q' && found then 0 else if failed then 2 else if found then 0 else 1
      Report.deliver ⟨results.flatMap fun (_, out, _) => out, faults, status⟩ inv.name

end CompileDb.Utility
