import CompileDb.Shell.Pattern
import CompileDb.Utility.Content

/-!
# Filters

Utilities that read lines or octets and write others: exchanged, cut, sorted, numbered or joined.
-/

namespace CompileDb.Utility

open Host

def filterOperands (inv : Invocation) (operands : List String) (status : Nat) (fault : String → Refusal → String)
    (filter : List (List Char) → List Char) : Action Nat := do
  let contents ← readOperands operands
  let texts := contents.filterMap fun (_, content) => content.toOption
  let faults := contents.filterMap fun (operand, content) => match content with
    | .error r => some (fault operand r)
    | .ok _ => none
  Report.deliver ⟨filter texts, faults, if faults.isEmpty then 0 else status⟩ inv.name

/-- What is said of an operand that cannot be read, in the usual way. -/
def usualFault (operand : String) (r : Refusal) : String := s!"{operand}: {r.message}"

/-! ## Exchanging octets -/

def allOctets : List Char := (List.range 256).map Char.ofNat

/-- The octet at the front of a set, with its escape, and the text behind it. -/
def setOctet : List Char → Option (Char × List Char)
  | '\\' :: c :: rest =>
    if Shell.isOctal c then
      let (n, rest) := Shell.digitsUpTo 8 3 0 (c :: rest)
      some (Shell.octet n, rest)
    else some ((Shell.escapeOctet? c).getD c, rest)
  | c :: rest => some (c, rest)
  | [] => none

def classOctets (name : String) : List Char := allOctets.filter (Shell.inClass name)

/-- The octets of a set, or what is wrong with it. `fuel` is more than its length; `wanted` octets fill up a repetition
without a count. -/
def setOctets (wanted : Nat) : Nat → List Char → Except String (List Char)
  | 0, _ => .ok []
  | _, [] => .ok []
  | fuel + 1, '[' :: ':' :: rest =>
    match Shell.Sign.className? (rest.map (·, false)) with
    | some (name, after) => do
      if !Shell.classNames.contains name then throw s!"invalid character class {quoted name}"
      return classOctets name ++ (← setOctets wanted fuel (after.map Prod.fst))
    | none => do return '[' :: ':' :: (← setOctets wanted fuel rest)
  | fuel + 1, '[' :: '=' :: c :: '=' :: ']' :: rest => do return c :: (← setOctets wanted fuel rest)
  | fuel + 1, text =>
    let repetition := match text with
      | '[' :: rest =>
        match setOctet rest with
        | some (c, '*' :: after) =>
          match after.dropWhile Char.isDigit with
          | ']' :: behind => some (c, Shell.decimal? (after.takeWhile Char.isDigit), behind)
          | _ => none
        | _ => none
      | _ => none
    match repetition with
    | some (c, count, rest) => do
      let after ← setOctets wanted fuel rest
      return List.replicate (count.getD (wanted - after.length)) c ++ after
    | none =>
      match setOctet text with
      | none => .ok []
      | some (low, '-' :: high :: rest) =>
        match setOctet (high :: rest) with
        | some (high, after) =>
          if high < low then .error s!"range-endpoints of \x27{low}-{high}\x27 are in reverse collating sequence order"
          else do
            let range := (List.range (high.toNat + 1 - low.toNat)).map fun i => Char.ofNat (low.toNat + i)
            return range ++ (← setOctets wanted fuel after)
        | none => .ok [low, '-']
      | some (c, rest) => do return c :: (← setOctets wanted fuel rest)

/-- Of octets of a set that follow one another and are the same, only one. -/
def squeezed (set : List Char) (text : List Char) : List Char :=
  (text.foldl (fun (kept : List Char) c => if kept.head? = some c && set.contains c then kept else c :: kept) []).reverse

/-- Puts octets of one set for those of another, or leaves octets out. -/
def tr (inv : Invocation) : Action Nat := do
  let table : OptionTable := ⟨"cCdst", "",
    [("complement", 'c'), ("delete", 'd'), ("squeeze-repeats", 's'), ("truncate-set1", 't')]⟩
  match table.parse false inv.arguments with
  | .error text => misused inv.name text 1
  | .ok (options, operands) =>
    let deletes := has options 'd'
    let squeezes := has options 's'
    let complements := has options 'c' || has options 'C'
    let when := if deletes then "both deleting and squeezing repeats" else "translating"
    let hint := s!"Two strings must be given when {when}.\nTry \x27{inv.name} --help\x27 for more information.\n"
    let mostOperands := if deletes && !squeezes then 1 else 2
    match operands with
    | [] => misused inv.name "missing operand" 1
    | [only] =>
      if deletes == squeezes then
        complain inv.name s!"missing operand after {quoted only}"
        let _ ← write 2 hint.toList
        return 1
      else go options deletes complements only ""
    | first :: second :: rest =>
      if mostOperands < operands.length then
        let why := if rest.isEmpty then "\nOnly one string may be given when deleting without squeezing repeats." else ""
        misused inv.name ("extra operand " ++ quoted (if mostOperands = 1 then second else rest.headD "") ++ why) 1
      else go options deletes complements first second
where
  /-- Does the work. -/
  go (options : List (Char × String)) (deletes complements : Bool) (first second : String) : Action Nat := do
    let sets : Except String (List Char × List Char) := do
      let a ← setOctets 0 (first.length + 1) first.toList
      let a := if complements then allOctets.filter (!a.contains ·) else a
      return (a, ← setOctets a.length (second.length + 1) second.toList)
    match sets with
    | .error text =>
      complain inv.name text
      return 1
    | .ok (a, b) =>
      match ← Action.readAll 0 with
      | .error r =>
        complain inv.name s!"read error: {r.message}"
        return 1
      | .ok bytes =>
        let text := Text.widen bytes
        let squeezes := has options 's'
        if deletes then
          let kept := text.filter (!a.contains ·)
          (Report.ofOutput (if squeezes then squeezed b kept else kept)).deliver inv.name
        else if second.isEmpty && squeezes then (Report.ofOutput (squeezed a text)).deliver inv.name
        else if second.isEmpty then
          complain inv.name "when not truncating set1, string2 must be non-empty"
          return 1
        else
          let a := if has options 't' then a.take b.length else a
          let table := allOctets.map fun c =>
            match (List.range a.length).reverse.find? fun i => a[i]? = some c with
            | some i => (b[i]?).getD (b.getLast?.getD c)
            | none => c
          let table := table.toArray
          let put (c : Char) : Char := table.getD c.toNat c
          let exchanged := text.map put
          (Report.ofOutput (if squeezes then squeezed b exchanged else exchanged)).deliver inv.name

/-! ## Cutting -/

/-- The ranges of a list like `1,3-5,7-`. -/
def ranges? (text : String) : Option (List (Nat × Option Nat)) :=
  ((text.toList.map fun c => if c = ' ' then ',' else c).splitOn ',').mapM fun piece =>
    let low := piece.takeWhile (· ≠ '-')
    match piece.dropWhile (· ≠ '-') with
    | [] => (Shell.decimal? low).bind fun n => if n = 0 then none else some (n, some n)
    | ['-'] => (Shell.decimal? low).bind fun n => if n = 0 then none else some (n, none)
    | _ :: high =>
      match Shell.decimal? high with
      | some m =>
        let n := (Shell.decimal? low).getD 1
        if n = 0 || m < n || (!low.isEmpty && (Shell.decimal? low).isNone) then none else some (n, some m)
      | none => none

def inRanges (ranges : List (Nat × Option Nat)) (n : Nat) : Bool :=
  ranges.any fun (low, high) => decide (low ≤ n) && high.all (n ≤ ·)

def chosen {α : Type} (ranges : List (Nat × Option Nat)) (complements : Bool) (l : List α) : List α :=
  (l.zipIdx.filter fun (_, i) => inRanges ranges (i + 1) != complements).map Prod.fst

def cut (inv : Invocation) : Action Nat :=
  withOptions ⟨"sn!", "bcfdO", [("bytes", 'b'), ("characters", 'c'), ("fields", 'f'), ("delimiter", 'd'),
      ("only-delimited", 's'), ("complement", '!'), ("output-delimiter", 'O')]⟩ 1 inv fun options operands => do
    let lists := options.filter fun (c, _) => c = 'b' || c = 'c' || c = 'f'
    match lists with
    | [] => misused inv.name "you must specify a list of bytes, characters, or fields" 1
    | [(kind, text)] =>
      match ranges? text with
      | none =>
        let hasZero := (text.splitOn ",").any fun p => (p.splitOn "-").head? = some "0"
        let what := if kind = 'f' then "fields are numbered from 1" else "byte/character positions are numbered from 1"
        let invalid := if kind = 'f' then s!"invalid field value {quoted text}"
          else s!"invalid byte/character position {quoted text}"
        let isDecreasing := (text.splitOn ",").any fun p => match (p.splitOn "-").map fun t => Shell.decimal? t.toList with
          | [some a, some b] => decide (b < a)
          | _ => false
        misused inv.name (if hasZero then what else if isDecreasing then "invalid decreasing range" else invalid) 1
      | some ranges =>
        let delimiter := (valueOf? options 'd').getD "\t"
        if 1 < delimiter.length then misused inv.name "the delimiter must be a single character" 1
        else
          let d := delimiter.toList.headD '\x00'
          let between := ((valueOf? options 'O').getD (if kind = 'f' then .singleton d else "")).toList
          let complements := has options '!'
          let one (line : List Char) : Option (List Char) :=
            if kind = 'f' then
              if line.contains d then some (between.intercalate (chosen ranges complements (line.splitOn d)))
              else if has options 's' then none
              else some line
            else some (chosen ranges complements line)
          filterOperands inv operands 1 usualFault fun texts =>
            unlines ((texts.flatMap fun t => (Lines.ofText t).all).filterMap one)
    | _ => misused inv.name "only one list may be specified" 1

/-! ## Lines that are the same -/

def runsOf (same : List Char → List Char → Bool) (lines : List (List Char)) : List (List (List Char)) :=
  lines.foldr (fun line runs => match runs with
    | (next :: run) :: rest => if same line next then (line :: next :: run) :: rest else [line] :: runs
    | _ => [line] :: runs) []

/-- Writes one of the lines that are the same and follow one another. -/
def uniq (inv : Invocation) : Action Nat :=
  withOptions ⟨"cduiDz", "fsw", [("count", 'c'), ("repeated", 'd'), ("unique", 'u'), ("ignore-case", 'i'),
      ("skip-fields", 'f'), ("skip-chars", 's'), ("check-chars", 'w')]⟩ 1 inv fun options operands => do
    let number (c : Char) : Option Nat := (valueOf? options c).bind fun v => Shell.decimal? v.toList
    let isBlank (c : Char) : Bool := c = ' ' || c = '\t'
    let skipField (t : List Char) : List Char := (t.dropWhile isBlank).dropWhile (!isBlank ·)
    let part (t : List Char) : List Char :=
      let t := ((List.range ((number 'f').getD 0)).foldl (fun t _ => skipField t) t).drop ((number 's').getD 0)
      let t := match number 'w' with
        | some n => t.take n
        | none => t
      if has options 'i' then t.map Char.toLower else t
    let text (runs : List (List (List Char))) : List Char :=
      let kept := runs.filter fun run =>
        (!(has options 'd' || has options 'D') || 1 < run.length) && (!has options 'u' || run.length = 1)
      unlines (kept.flatMap fun run =>
        if has options 'D' then run
        else if has options 'c' then [padded 7 run.length ++ ' ' :: run.headD []]
        else run.take 1)
    let content ← if 2 < operands.length then pure (.ok []) else readOperand (operands.headD "-")
    match operands[2]?, content with
    | some extra, _ => misused inv.name s!"extra operand {quoted extra}" 1
    | none, .error r =>
      complain inv.name (operands.headD "-" ++ ": " ++ r.message)
      return 1
    | none, .ok t =>
      let out := text (runsOf (fun a b => part a = part b) (Lines.ofText t).all)
      match operands[1]? with
      | none => (Report.ofOutput out).deliver inv.name
      | some path =>
        match ← Action.change fun files => files.write ⟨Text.ofOctets path⟩ (Text.narrow out) with
        | .ok () => return 0
        | .error o =>
          complain inv.name s!"{path}: {Refusal.message (.path o)}"
          return 1

/-! ## Numbering, joining and folding -/

def nl (inv : Invocation) : Action Nat :=
  withOptions ⟨"p", "bswnvi", [("body-numbering", 'b'), ("number-separator", 's'), ("number-width", 'w')]⟩ 1 inv
    fun options operands => do
      let number (c : Char) (usual : Nat) : Nat := ((valueOf? options c).bind fun v => Shell.decimal? v.toList).getD usual
      let separator := ((valueOf? options 's').getD "\t").toList
      let width := number 'w' 6
      let step := number 'i' 1
      let numbersAll := valueOf? options 'b' = some "a"
      let format := (valueOf? options 'n').getD "rn"
      let shown (n : Nat) : List Char :=
        let digits := Nat.toDigits 10 n
        let fill (c : Char) : List Char := List.replicate (width - digits.length) c
        match format with
        | "ln" => digits ++ fill ' '
        | "rz" => fill '0' ++ digits
        | _ => fill ' ' ++ digits
      filterOperands inv operands 1 usualFault fun texts =>
        let lines := texts.flatMap fun t => (Lines.ofText t).all
        let (_, out) := lines.foldl (fun (n, out) line =>
          if line.isEmpty && !numbersAll then (n, (List.replicate (width + separator.length) ' ') :: out)
          else (n + step, (shown n ++ separator ++ line) :: out)) ((number 'v' 1, []) : Nat × List (List Char))
        unlines out.reverse

/-- Lists side by side: the first members, the second ones, and so on. -/
def sideBySide : Nat → List (List (List Char)) → List (List (List Char))
  | 0, _ => []
  | fuel + 1, columns =>
    if columns.all List.isEmpty then []
    else columns.map (fun c => c.headD []) :: sideBySide fuel (columns.map List.tail)

/-- Texts joined by delimiters, which come in turn. -/
def joinInTurn (delimiters : List (List Char)) (texts : List (List Char)) : List Char :=
  (texts.zipIdx.map fun (t, i) =>
    if i = 0 then t else (delimiters[(i - 1) % max 1 delimiters.length]?).getD [] ++ t).flatten

/-- Joins lines of files. -/
def paste (inv : Invocation) : Action Nat :=
  withOptions ⟨"s", "d", [("serial", 's'), ("delimiters", 'd')]⟩ 1 inv fun options operands => do
    let rec delimiters : List Char → List (List Char)
      | '\\' :: '0' :: rest => [] :: delimiters rest
      | '\\' :: c :: rest => [(Shell.escapeOctet? c).getD c] :: delimiters rest
      | c :: rest => [c] :: delimiters rest
      | [] => []
    let ds := delimiters ((valueOf? options 'd').getD "\t").toList
    let contents ← readOperands operands
    match contents.find? fun (_, content) => !content.isOk with
    | some (operand, .error r) =>
      complain inv.name s!"{operand}: {r.message}"
      return 1
    | _ =>
      let all := contents.map fun (_, content) => (content.toOption.map fun t => (Lines.ofText t).all).getD []
      -- what is read stands in as many columns as there are dashes
      let dashes := (operands.filter (· = "-")).length
      let read := (contents.find? fun (operand, _) => operand = "-").bind fun (_, c) => c.toOption
      let shared := read.map fun t => (Lines.ofText t).all
      let turn (operand : String) (i : Nat) : List (List Char) :=
        if operand = "-" && 1 < dashes then
          let k := ((operands.take i).filter (· = "-")).length
          (((shared.getD []).zipIdx.filter fun (_, j) => j % dashes = k).map Prod.fst)
        else (all[i]?).getD []
      let columns := if operands.isEmpty then all else operands.zipIdx.map fun (o, i) => turn o i
      let rows := if has options 's' then columns
        else sideBySide ((columns.map List.length).foldl max 0 + 1) columns
      (Report.ofOutput (unlines (rows.map (joinInTurn ds)))).deliver inv.name

/-- Breaks lines that are too long. -/
def fold (inv : Invocation) : Action Nat :=
  withOptions ⟨"bs", "w", [("width", 'w'), ("spaces", 's'), ("bytes", 'b')]⟩ 1 inv fun options operands => do
    let columns := (valueOf? options 'w').getD "80"
    match (Shell.decimal? columns.toList).filter (0 < ·) with
    | none =>
      let reason := if columns.toList.all (· = '0') then ": Numerical result out of range" else ""
      complain inv.name s!"invalid number of columns: {quoted columns}{reason}"
      return 1
    | some width =>
      let rec broken : Nat → List Char → List (List Char)
        | 0, line => [line]
        | fuel + 1, line =>
          if line.length ≤ width then [line]
          else
            let front := line.take width
            let kept := if has options 's' then (front.reverse.dropWhile fun c => c ≠ ' ' && c ≠ '\t').reverse else front
            let cut := if kept.isEmpty then width else kept.length
            line.take cut :: broken fuel (line.drop cut)
      filterOperands inv operands 1 usualFault fun texts =>
        (texts.map fun t =>
          let lines := Lines.ofText t
          unlines (lines.whole.flatMap fun l => broken l.length l) ++ ['\n'].intercalate
            (if lines.rest.isEmpty then [] else broken lines.rest.length lines.rest)).flatten

end CompileDb.Utility
