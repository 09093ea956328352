import CompileDb.Utility.Place

/-!
# Comparing

Utilities that compare two files: by their octets, by their lines, or by sorted lines that they share.
-/

namespace CompileDb.Utility

open Host

/-- What is said of a wrong use, with the name before each line. -/
def misusedTwice (name text : String) : Action Nat := do
  complain name text
  complain name s!"Try \x27{name} --help\x27 for more information."
  return 2

/-! ## Octets -/

/-- Says where two files differ. -/
def cmp (inv : Invocation) : Action Nat :=
  withOptions ⟨"sl", "", [("silent", 's'), ("quiet", 's'), ("verbose", 'l')]⟩ 2 inv fun options operands => do
    match operands with
    | [] => misusedTwice inv.name s!"missing operand after {quoted inv.name}"
    | a :: rest =>
      let b := rest.headD "-"
      match ← readOperand a, ← readOperand b with
      | .error r, _ =>
        complain inv.name s!"{a}: {r.message}"
        return 2
      | _, .error r =>
        complain inv.name s!"{b}: {r.message}"
        return 2
      | .ok s, .ok t =>
        let shared := ((s.zip t).takeWhile fun (c, d) => c = d).map Prod.fst
        let line := shared.count '\n' + 1
        if s = t then return 0
        else if has options 's' then return 1
        else if shared.length = s.length || shared.length = t.length then
          let short := if shared.length = s.length then a else b
          let place := if shared.getLast? = some '\n' then s!"line {line - 1}" else s!"in line {line}"
          complain inv.name (if shared.isEmpty then s!"EOF on {short} which is empty"
            else s!"EOF on {short} after byte {shared.length}, {place}")
          return 1
        else Report.deliver ⟨s!"{a} {b} differ: char {shared.length + 1}, line {line}\n".toList, [], 1⟩ inv.name

/-! ## Sorted lines -/

def compareTexts (a b : List Char) : Ordering := compare (String.ofList a) (String.ofList b)

/-- Compares two lists of sorted lines: each line, and in which of the lists it is. -/
def merged : Nat → List (List Char) → List (List Char) → List (Nat × List Char)
  | 0, _, _ => []
  | _, [], b => b.map (2, ·)
  | _, a, [] => a.map (1, ·)
  | fuel + 1, x :: a, y :: b =>
    match compareTexts x y with
    | .lt => (1, x) :: merged fuel a (y :: b)
    | .gt => (2, y) :: merged fuel (x :: a) b
    | .eq => (3, x) :: merged fuel a b

/-- Some line comes before the one above it. -/
def isUnsorted (lines : List (List Char)) : Bool := (lines.zip (lines.drop 1)).any fun (a, b) => compareTexts a b == .gt

/-- Shows which lines two sorted files share. -/
def comm (inv : Invocation) : Action Nat :=
  withOptions ⟨"123", "", []⟩ 1 inv fun options operands => do
    match operands with
    | [] => misused inv.name "missing operand" 1
    | [only] => misused inv.name s!"missing operand after {quoted only}" 1
    | _ :: _ :: extra :: _ => misused inv.name s!"extra operand {quoted extra}" 1
    | [a, b] =>
      match ← readOperand a, ← readOperand b with
      | .error r, _ =>
        complain inv.name s!"{a}: {r.message}"
        return 1
      | _, .error r =>
        complain inv.name s!"{b}: {r.message}"
        return 1
      | .ok s, .ok t =>
        let (x, y) := ((Lines.ofText s).all, (Lines.ofText t).all)
        let letter (n : Nat) : Char := Char.ofNat (48 + n)
        let shown (n : Nat) : Bool := !has options (letter n)
        let line : Nat × List Char → Option (List Char)
          | (n, text) =>
            if shown n then some (List.replicate ((List.range n).filter fun k => 0 < k && shown k).length '\t' ++ text)
            else none
        let lines := merged (x.length + y.length + 1) x y
        -- the order is looked at from the first line that is not shared
        let shared := (lines.takeWhile fun (n, _) => n = 3).length
        let wrong := [(1, x), (2, y)].filter fun (_, all) => isUnsorted (all.drop (shared - 1)) && shared < lines.length
        let faults := wrong.map fun (n, _) => s!"file {n} is not in sorted order"
        let faults := if faults.isEmpty then [] else faults ++ ["input is not in sorted order"]
        Report.deliver ⟨unlines (lines.filterMap line), faults, if faults.isEmpty then 0 else 1⟩ inv.name

/-! ## Differences -/

namespace Difference

/-- A step from one list of lines to another. -/
inductive Step where
  | keep (line : List Char)
  | delete (line : List Char)
  | insert (line : List Char)
deriving DecidableEq, Repr

/-- How much the ends of two lists have in common at most: one row for each end of `a`, the longest first, with a number for
each end of `b`. -/
def commonLengths (same : List Char → List Char → Bool) (b : Array (List Char)) : List (List Char) → List (Array Nat)
  | [] => [Array.replicate (b.size + 1) 0]
  | line :: a =>
    let rows := commonLengths same b a
    let below := rows.headD #[]
    let (row, _) := (List.range b.size).foldr (fun j (state : List Nat × Nat) =>
      let (row, right) := state
      let n := if same line (b.getD j []) then below.getD (j + 1) 0 + 1 else max (below.getD j 0) right
      (n :: row, n)) ([0], 0)
    row.toArray :: rows

/-- The steps from one list to another that keep the most. Lines are kept as early as possible. -/
def steps (same : List Char → List Char → Bool) : Nat → List (Array Nat) → Nat → List (List Char) → List (List Char) → List Step
  | 0, _, _, _, _ => []
  | _, _, _, a, [] => a.map .delete
  | _, _, _, [], b => b.map .insert
  | fuel + 1, rows, j, x :: a, y :: b =>
    if same x y then .keep x :: steps same fuel rows.tail (j + 1) a b
    else
      let down := (rows[1]?.getD #[]).getD j 0
      let right := (rows.headD #[]).getD (j + 1) 0
      if right ≤ down then .delete x :: steps same fuel rows.tail j a (y :: b)
      else .insert y :: steps same fuel rows (j + 1) (x :: a) b

def between (same : List Char → List Char → Bool) (a b : List (List Char)) : List Step :=
  let front := ((a.zip b).takeWhile fun (x, y) => same x y).map Prod.fst
  let (a, b) := (a.drop front.length, b.drop front.length)
  let back := (((a.reverse.zip b.reverse).takeWhile fun (x, y) => same x y).map Prod.fst).reverse
  let (a, b) := (a.take (a.length - back.length), b.take (b.length - back.length))
  front.map .keep ++ steps same (a.length + b.length + 1) (commonLengths same b.toArray a) 0 a b ++ back.map .keep

/-- Lines that are replaced by others, and where. -/
structure Change where
  /-- The lines before it in each text. -/
  before : Nat × Nat
  deleted : List (List Char)
  inserted : List (List Char)

/-- The changes that steps make. The last change is the one that steps go on with. -/
def changes (all : List Step) : List Change :=
  let close (current : Option Change) (done : List Change) : List Change := current.toList ++ done
  let step (state : (Nat × Nat) × Option Change × List Change) (s : Step) : (Nat × Nat) × Option Change × List Change :=
    let ((i, j), current, done) := state
    let change := current.getD ⟨(i, j), [], []⟩
    match s with
    | .keep _ => ((i + 1, j + 1), none, close current done)
    | .delete line => ((i + 1, j), some { change with deleted := change.deleted ++ [line] }, done)
    | .insert line => ((i, j + 1), some { change with inserted := change.inserted ++ [line] }, done)
  let (_, current, done) := all.foldl step ((0, 0), none, [])
  (close current done).reverse

/-- A line behind a sign. A text may end in a line that lacks its newline. -/
def shown (sign : String) (line : List Char) : List Char :=
  sign.toList ++ line ++ if line.getLast? = some '\n' then [] else "\n\\ No newline at end of file\n".toList

def range (before count : Nat) : String :=
  if count = 0 then toString before
  else if count = 1 then toString (before + 1)
  else s!"{before + 1},{before + count}"

def plain (c : Change) : List Char :=
  let (i, j) := c.before
  let letter := if c.inserted.isEmpty then "d" else if c.deleted.isEmpty then "a" else "c"
  let head := range i c.deleted.length ++ letter ++ range j c.inserted.length ++ "\n"
  let middle := if c.deleted.isEmpty || c.inserted.isEmpty then "" else "---\n"
  head.toList ++ c.deleted.flatMap (shown "< ") ++ middle.toList ++ c.inserted.flatMap (shown "> ")

/-- The lines that are shown around changes. -/
def context : Nat := 3

def grouped (all : List Change) : List (List Change) :=
  all.foldr (fun c groups => match groups with
    | (next :: group) :: rest =>
      if next.before.1 ≤ c.before.1 + c.deleted.length + 2 * context then (c :: next :: group) :: rest else [c] :: groups
    | _ => [c] :: groups) []

/-- A group of changes with what is around them. `lines` are those of the first text. -/
def unified (lines : Array (List Char)) (group : List Change) : List Char :=
  match group, group.getLast? with
  | first :: _, some last =>
    let start := first.before.1 - context
    let lead := first.before.1 - start
    let stop := min lines.size (last.before.1 + last.deleted.length + context)
    let kept (start stop : Nat) : List Char := ((lines.toList.drop start).take (stop - start)).flatMap (shown " ")
    let (body, reached) := group.foldl (fun (state : List Char × Nat) c =>
      let (body, reached) := state
      (body ++ kept reached c.before.1 ++ c.deleted.flatMap (shown "-") ++ c.inserted.flatMap (shown "+"),
        c.before.1 + c.deleted.length)) ([], start)
    let count := stop - start
    let newCount := group.foldl (fun n c => n + c.inserted.length) count - group.foldl (fun n c => n + c.deleted.length) 0
    let span (before count : Nat) : String :=
      let first := if count = 0 then before else before + 1
      if count = 1 then toString first else s!"{first},{count}"
    let head := s!"@@ -{span start count} +{span (first.before.2 - lead) newCount} @@\n"
    head.toList ++ body ++ kept reached stop
  | _, _ => []

def sameLines (options : List (Char × String)) (a b : List Char) : Bool :=
  let isBlank (c : Char) : Bool := c = ' ' || c = '\t' || c = '\n'
  let fit (t : List Char) : List Char :=
    let t := if has options 'i' then t.map Char.toLower else t
    if has options 'w' then t.filter (!isBlank ·)
    else if has options 'b' then ((String.ofList (t.map fun c => if isBlank c then ' ' else c)).splitOn " ").filter (!·.isEmpty)
      |> " ".intercalate |>.toList
    else t
  fit a = fit b

end Difference

/-- The file that an operand stands for if it is compared with another one: in a directory, the one of the same name. -/
def counterpart (files : FileTree) (operand other : String) : String :=
  if isDirectoryAt files operand && !isDirectoryAt files other then inside operand (lastName other) else operand

/-- Shows how two files differ. -/
def diff (inv : Invocation) : Action Nat := do
  let fail := misusedTwice inv.name
  let table : OptionTable :=
    ⟨"uqsiwbNaB", "", [("brief", 'q'), ("report-identical-files", 's'), ("ignore-case", 'i'), ("unified", 'u')]⟩
  match table.parse true inv.arguments with
  | .error text => fail text
  | .ok (options, operands) =>
    match operands with
    | [] => fail s!"missing operand after {quoted inv.name}"
    | [only] => fail s!"missing operand after {quoted only}"
    | _ :: _ :: extra :: _ => fail s!"extra operand {quoted extra}"
    | [a, b] =>
      let files ← Action.files
      let (a, b) := (counterpart files a b, counterpart files b a)
      let (first, second) := (← readOperand a, ← readOperand b)
      match first, second with
      | .ok s, .ok t =>
        let (x, y) := ((Lines.ofText s).pieces, (Lines.ofText t).pieces)
        let changes := Difference.changes (Difference.between (Difference.sameLines options) x y)
        if changes.isEmpty then
          report inv (if has options 's' then s!"Files {a} and {b} are identical\n" else "")
        else if has options 'q' then Report.deliver ⟨s!"Files {a} and {b} differ\n".toList, [], 1⟩ inv.name
        else if has options 'u' then
          let time := "1970-01-01 00:00:00.000000000 +0000"
          let head := s!"--- {a}\t{time}\n+++ {b}\t{time}\n"
          let body := (Difference.grouped changes).flatMap (Difference.unified x.toArray)
          Report.deliver ⟨head.toList ++ body, [], 1⟩ inv.name
        else Report.deliver ⟨changes.flatMap Difference.plain, [], 1⟩ inv.name
      | _, _ =>
        for (operand, content) in [(a, first), (b, second)] do
          match content with
          | .error r => complain inv.name s!"{operand}: {r.message}"
          | .ok _ => pure ()
        return 2

end CompileDb.Utility
