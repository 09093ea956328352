import CompileDb.Shell.Recipe

/-!
# Reading recipes

A shell reads its text command by command, because what it has carried out may change what the text after it stands for:
a word can be an alias. What is read is cut into tokens. Where a word is no longer than a word of the shell's own, and
where such a word may stand, it is one.

The reader calls itself again for what stands within words. `fuel` bounds how often; more than ten times the length of
the text is enough.
-/

namespace CompileDb.Shell

/-- Why a text cannot be read, and the line where that shows. -/
structure SyntaxError where
  line : Nat
  message : String
deriving DecidableEq, Repr

/-- The direction of a redirection. -/
inductive Arrow where
  | source
  | target (anyway : Bool)
  | append
  | update
  | copy
  | document (stripsTabs : Bool)
deriving DecidableEq, Repr

/-- A token. -/
inductive Token where
  | endOfFile
  | newline
  | semicolon
  | ampersand
  | andAnd
  | orOr
  | bar
  | openParen
  | closeParen
  | doubleSemicolon
  | arrow (descriptor : Nat) (arrow : Arrow)
  | word (w : Word)
  | keyword (k : String)

namespace Token

def describe : Token → String
  | endOfFile => "end of file"
  | newline => "newline"
  | semicolon => "\";\""
  | ampersand => "\"&\""
  | andAnd => "\"&&\""
  | orOr => "\"||\""
  | bar => "\"|\""
  | openParen => "\"(\""
  | closeParen => "\")\""
  | doubleSemicolon => "\";;\""
  | arrow .. => "redirection"
  | word _ => "word"
  | keyword k => "\"" ++ k ++ "\""

/-- No command begins with the token: it ends a list of commands. -/
def endsList : Token → Bool
  | endOfFile => true
  | closeParen => true
  | doubleSemicolon => true
  | keyword k => k ∈ ["do", "done", "elif", "else", "esac", "fi", "then", "\x7d"]
  | _ => false

def isKeyword (k : String) : Token → Bool
  | keyword l => l = k
  | _ => false

end Token

def keywords : List String :=
  ["!", "case", "do", "done", "elif", "else", "esac", "fi", "for", "if", "in", "then", "until", "while", "\x7b", "\x7d"]

/-- What is looked for in the next token. -/
structure Check where
  /-- Newlines before it do not count. -/
  newlines : Bool
  keywords : Bool
  aliases : Bool

namespace Check

def plain : Check := ⟨false, false, false⟩

def command : Check := ⟨false, true, true⟩

/-- Where a command may begin, perhaps on a line below. -/
def commandBelow : Check := ⟨true, true, true⟩

/-- Where a word of the shell may stand, perhaps on a line below. -/
def keywordBelow : Check := ⟨true, true, false⟩

end Check

/-- A text to be read from a redirection on, and where it ends. -/
structure Awaiting where
  number : Nat
  mark : List Char
  stripsTabs : Bool
  /-- The mark was quoted: the text stands for itself. -/
  quoted : Bool

/-- The value of an alias that is being read. -/
structure Use where
  name : String
  /-- The value asks for another alias after it. -/
  asks : Bool
  /-- The aliases whose values ended right before this one. They count as being read as long as it does. -/
  ended : List String

/-- A text being read. -/
structure Source where
  rest : List Char
  line : Nat
  aliases : List (String × String)
  /-- The aliases whose values are being read, innermost first. -/
  inUse : List Use
  /-- The aliases whose values have ended. They count as being read until the next character is looked for. -/
  ended : List String
  /-- An alias has ended whose value asks for another one after it. -/
  asksAlias : Bool
  pushedBack : Option Token
  awaiting : List Awaiting
  /-- The texts that stand with redirections, by their numbers. -/
  documents : List (Nat × Word)
  nextDocument : Nat

abbrev Reading := StateT Source (Except SyntaxError)

namespace Reading

/-! ## Characters -/

/-- The character after the value of an alias. No octet has this number. -/
def aliasEnd : Char := '\u0100'

def leaveAlias (s : Source) : Source :=
  match s.inUse with
  | use :: outer =>
    { s with inUse := outer, ended := use.name :: use.ended, asksAlias := s.asksAlias || use.asks }
  | [] => s

/-- The value of an alias is being read. -/
def isInUse (s : Source) (name : String) : Bool :=
  s.ended.contains name || s.inUse.any fun use => use.name = name || use.ended.contains name

/-- The value of an alias comes next. -/
def enterAlias (s : Source) (name value : String) : Source :=
  let asks := value.toList.getLast?.any fun c => c = ' ' || c = '\t'
  if value.isEmpty then s
  else { s with rest := value.toList ++ aliasEnd :: s.rest, inUse := ⟨name, asks, s.ended⟩ :: s.inUse, ended := [] }

/-- The next character of `text`, with `s` as the source before it. With `joins`, lines that end in a backslash are
joined with the next. -/
def next (joins : Bool) (s : Source) : List Char → Option Char × Source
  | [] => (none, { s with rest := [] })
  | c :: rest =>
    if c = aliasEnd then next joins (leaveAlias s) rest
    else if joins && c = '\\' then
      match rest with
      | '\n' :: rest => next joins { s with line := s.line + 1 } rest
      | rest => (some c, { s with rest })
    else (some c, { s with rest })

def take (joins : Bool) : Reading (Option Char) := do
  let s ← get
  let (c, s) := next joins { s with ended := [] } s.rest
  set s
  return c

def peek (joins : Bool) : Reading (Option Char) := do
  let s ← get
  let (c, s) := next joins { s with ended := [] } s.rest
  set { s with rest := c.toList ++ s.rest }
  return c

/-- Takes the next character. -/
def skip : Reading Unit := do
  let _ ← take true

def putBack (c : Option Char) : Reading Unit :=
  modify fun s => { s with rest := c.toList ++ s.rest }

def nextLine : Reading Unit := modify fun s => { s with line := s.line + 1 }

def takeIf (c : Char) : Reading Bool := do
  if (← peek true) = some c then
    skip
    return true
  else return false

def fail {α : Type} (message : String) : Reading α := do
  throw ⟨(← get).line, message⟩

def unexpected {α : Type} (t : Token) : Reading α := fail s!"{t.describe} unexpected"

def expected {α : Type} (t wanted : Token) : Reading α :=
  fail s!"{t.describe} unexpected (expecting {wanted.describe})"

def pushBack (t : Token) : Reading Unit := modify fun s => { s with pushedBack := some t }

/-- A character that ends a word outside of quotes. -/
def endsWord (c : Char) : Bool :=
  c ∈ [' ', '\t', '\n', ';', '&', '|', '(', ')', '<', '>']

def isSpecial (c : Char) : Bool :=
  c ∈ ['@', '*', '#', '?', '-', '$', '!'] || c.isDigit

/-- Takes characters while they belong to a name; `seen` holds those before, last one first. -/
def name (belongs : Char → Bool) : Nat → List Char → Reading String
  | 0, seen => return .ofList seen.reverse
  | fuel + 1, seen => do
    match ← peek true with
    | some c =>
      if belongs c then
        skip
        name belongs fuel (c :: seen)
      else return .ofList seen.reverse
    | none => return .ofList seen.reverse

def apostrophes : Nat → List Char → Reading String
  | 0, _ => fail "Unterminated quoted string"
  | fuel + 1, seen => do
    match ← take false with
    | none => fail "Unterminated quoted string"
    | some '\x27' => return .ofList seen.reverse
    | some c =>
      if c = '\n' then nextLine
      apostrophes fuel (c :: seen)

def backquotes (inQuotes : Bool) : Nat → List Char → Reading (List Char)
  | 0, _ => fail "EOF in backquote substitution"
  | fuel + 1, seen => do
    match ← take true with
    | none => fail "EOF in backquote substitution"
    | some '\x60' => return seen.reverse
    | some '\\' =>
      match ← take false with
      | none => fail "EOF in backquote substitution"
      | some c =>
        let escaped := c ∈ ['\\', '\x60', '$'] || (inQuotes && c = '"')
        backquotes inQuotes fuel (if escaped then c :: seen else c :: '\\' :: seen)
    | some c =>
      if c = '\n' then nextLine
      backquotes inQuotes fuel (c :: seen)

def comment (s : Source) : List Char → Source
  | [] => { s with rest := [] }
  | c :: rest =>
    if c = '\n' then { s with rest := c :: rest }
    else comment (if c = aliasEnd then leaveAlias s else s) rest

/-- The line at the front of a text, and the text after it. The line of a text that ends without a newline is its
last. -/
def splitLine (text : List Char) : List Char × List Char :=
  (text.takeWhile (· ≠ '\n'), text.dropWhile (· ≠ '\n'))

/-- The text after the line that ends a document, if that line is at the front. -/
def markEnd? (a : Awaiting) (text : List Char) : Option (List Char) :=
  let text := if a.stripsTabs then text.dropWhile (· = '\t') else text
  let (line, after) := splitLine text
  if line.filter (· ≠ aliasEnd) = a.mark then some (after.drop 1) else none

/-- Begins a line of a document. The document may end there. -/
def beginsLine (a : Awaiting) : Reading Bool := do
  let s ← get
  match markEnd? a s.rest with
  | some rest =>
    set { s with rest, line := s.line + 1 }
    return true
  | none =>
    if a.stripsTabs then set { s with rest := s.rest.dropWhile (· = '\t') }
    return s.rest.isEmpty

/-- Takes a document whose characters stand for themselves. -/
def plainDocument (a : Awaiting) : Nat → List Char → Reading (List Char)
  | 0, seen => return seen.reverse
  | fuel + 1, seen => do
    if ← beginsLine a then return seen.reverse
    let s ← get
    let (line, after) := splitLine s.rest
    set { s with rest := after.drop 1, line := s.line + 1 }
    let seen := line.reverse ++ seen
    if after.isEmpty then return seen.reverse else plainDocument a fuel ('\n' :: seen)

/-! ## Words -/

/-- What the parts of a word stand in. -/
inductive Setting where
  /-- A word outside of quotes. -/
  | word
  /-- The mark of a document, in which nothing has a value. -/
  | mark
  /-- Double quotes. -/
  | double
  /-- The braces of a parameter, perhaps within double quotes. -/
  | braces (inQuotes : Bool)
  /-- An arithmetic formula with so many open parentheses. -/
  | formula (depth : Nat)
  | document (a : Awaiting)

def Setting.isQuoted : Setting → Bool
  | word => false
  | mark => false
  | double => true
  | braces inQuotes => inQuotes
  | formula _ => true
  | document _ => true

/-- The parts that were read, with the characters that were read after them. Both come in with the last one first. -/
def flush (parts : List Part) (run : List Char) : List Part :=
  if run.isEmpty then parts else .text (.ofList run.reverse) :: parts

/-- A backslash before this character takes its meaning away. -/
def Setting.isEscaped (s : Setting) (c : Char) : Bool :=
  match s with
  | word => true
  | mark => true
  | braces false => true
  | document _ => c ∈ ['\\', '\x60', '$']
  | braces true => c ∈ ['\\', '\x60', '$', '"', '\x7d']
  | _ => c ∈ ['\\', '\x60', '$', '"']

/-- What the text lacks if it ends within a setting. -/
def Setting.lack? : Setting → Option String
  | word => none
  | mark => none
  | double => some "Unterminated quoted string"
  | braces true => some "Unterminated quoted string"
  | braces false => some "Missing \x27\x7d\x27"
  | formula _ => some "Missing \x27))\x27"
  | document _ => none

/-- The token of an arrow after its first character, which is `<` or `>`. -/
def arrow (c : Char) (digit : Option Nat) : Reading Token := do
  if c = '>' then
    let d := digit.getD 1
    if ← takeIf '>' then return .arrow d .append
    if ← takeIf '|' then return .arrow d (.target true)
    if ← takeIf '&' then return .arrow d .copy
    return .arrow d (.target false)
  else
    let d := digit.getD 0
    if ← takeIf '<' then return .arrow d (.document (← takeIf '-'))
    if ← takeIf '&' then return .arrow d .copy
    if ← takeIf '>' then return .arrow d .update
    return .arrow d .source

def arrowDigit? : Word → Option (Option Nat)
  | [] => some none
  | [.text t] =>
    match t.toList with
    | [c] => if c.isDigit then some (some (c.toNat - 48)) else none
    | _ => none
  | _ => none

/-- The change that a character after the name of a parameter asks for, once its word is known. -/
def wordChange? (c : Option Char) (forEmpty : Bool) : Option (Word → Change) :=
  match c with
  | some '-' => some (.orElse forEmpty)
  | some '=' => some (.orAssign forEmpty)
  | some '?' => some (.orComplain forEmpty)
  | some '+' => some (.ifSet forEmpty)
  | _ => none

/-- Sets what is known of the reader before a text of its own is read. -/
def isolated {α : Type} (rest : Option (List Char)) (read : Reading α) : Reading α := do
  let before ← get
  set { before with
    rest := rest.getD before.rest
    line := if rest.isSome then 1 else before.line
    inUse := if rest.isSome then [] else before.inUse
    ended := if rest.isSome then [] else before.ended
    pushedBack := none
    awaiting := [] }
  let a ← read
  modify fun s => { s with
    rest := if rest.isSome then before.rest else s.rest
    line := if rest.isSome then before.line else s.line
    inUse := if rest.isSome then before.inUse else s.inUse
    ended := if rest.isSome then before.ended else s.ended
    pushedBack := before.pushedBack
    awaiting := before.awaiting }
  return a

/-- A list of commands as it is asked for. -/
inductive Listing where
  /-- Of a compound command: newlines do not end it. -/
  | compound
  /-- Of a line. -/
  | line
  /-- Between brackets: it may be empty. -/
  | bracketed
deriving DecidableEq

mutual

def parts : Nat → Setting → List Part → List Char → Reading Word
  | 0, _, _, _ => fail "Word too long"
  | fuel + 1, s, seen, run => do
    match ← take true with
    | none =>
      match s.lack? with
      | some message => fail message
      | none => return (flush seen run).reverse
    | some c =>
      if c = '\\' then
        match ← take false with
        | none => parts fuel s (.literal "\\" :: flush seen run) []
        | some e =>
          if s.isEscaped e then parts fuel s (.literal (.singleton e) :: flush seen run) []
          else
            if e = '\n' then nextLine
            parts fuel s (.literal (.ofList ['\\', e]) :: flush seen run) []
      else if c = '$' then
        match s with
        | .mark => parts fuel s seen ('$' :: run)
        | _ =>
          match ← dollar fuel s.isQuoted with
          | some p => parts fuel s (p :: flush seen run) []
          | none => parts fuel s seen ('$' :: run)
      else if c = '\x60' then
        let text ← backquotes s.isQuoted fuel []
        let recipe ← isolated (some text) (list fuel .bracketed)
        parts fuel s (.output (recipe.getD .nothing) :: flush seen run) []
      else
        match s with
        | .word => outside fuel s c seen run
        | .mark => outside fuel s c seen run
        | .double =>
          if c = '"' then return (flush seen run).reverse
          else
            if c = '\n' then nextLine
            parts fuel s seen (c :: run)
        | .braces inQuotes =>
          if c = '\x7d' then return (flush seen run).reverse
          else if c = '"' then
            let inner ← parts fuel .double [] []
            parts fuel s (.quoted inner :: flush seen run) []
          else if c = '\x27' && !inQuotes then
            let inner ← apostrophes fuel []
            parts fuel s (.quoted [.literal inner] :: flush seen run) []
          else
            if c = '\n' then nextLine
            parts fuel s seen (c :: run)
        | .formula depth =>
          if c = '(' then parts fuel (.formula (depth + 1)) seen (c :: run)
          else if c = ')' then
            match depth with
            | depth + 1 => parts fuel (.formula depth) seen (c :: run)
            | 0 => if ← takeIf ')' then return (flush seen run).reverse else parts fuel s seen (c :: run)
          else
            if c = '\n' then nextLine
            parts fuel s seen (c :: run)
        | .document a =>
          if c = '\n' then
            nextLine
            if ← beginsLine a then return (flush seen (c :: run)).reverse else parts fuel s seen (c :: run)
          else parts fuel s seen (c :: run)

/-- Goes on with a word outside of quotes after its next character. -/
def outside : Nat → Setting → Char → List Part → List Char → Reading Word
  | 0, _, _, _, _ => fail "Word too long"
  | fuel + 1, s, c, seen, run => do
    if endsWord c then
      putBack (some c)
      return (flush seen run).reverse
    else if c = '"' then
      let inner ← parts fuel .double [] []
      parts fuel s (.quoted inner :: flush seen run) []
    else if c = '\x27' then
      let inner ← apostrophes fuel []
      parts fuel s (.quoted [.literal inner] :: flush seen run) []
    else parts fuel s seen (c :: run)

/-- What a dollar sign stands for with what follows it, if it does not stand for itself. -/
def dollar : Nat → Bool → Reading (Option Part)
  | 0, _ => return none
  | fuel + 1, inQuotes => do
    match ← peek true with
    | some '(' =>
      skip
      if ← takeIf '(' then return some (.sum (← parts fuel (.formula 0) [] []))
      else
        let recipe ← isolated none (do
          let recipe ← list fuel .bracketed
          match ← token fuel .plain with
          | .closeParen => return recipe
          | t => expected t .closeParen)
        return some (.output (recipe.getD .nothing))
    | some '\x7b' =>
      skip
      return some (← braces fuel inQuotes)
    | some c =>
      if isNameStart c then return some (.parameter (← name isNameChar fuel []) .keep)
      else if isSpecial c then
        skip
        return some (.parameter (.singleton c) .keep)
      else return none
    | none => return none

/-- A parameter between braces, after the opening one. -/
def braces : Nat → Bool → Reading Part
  | 0, _ => fail "Bad substitution"
  | fuel + 1, inQuotes => do
    let bad : Reading Part := do
      let _ ← parts fuel (.braces inQuotes) [] []
      return .parameter "" .unknown
    match ← take true with
    | none => do
      let _ ← parts fuel (.braces inQuotes) [] []
      bad
    | some c =>
      if isNameStart c then
        putBack (some c)
        change fuel inQuotes (← name isNameChar fuel [])
      else if c.isDigit then
        putBack (some c)
        change fuel inQuotes (← name Char.isDigit fuel [])
      else if c = '#' then
        match ← take true with
        | none => bad
        | some d =>
          if isNameChar d then
            putBack (some d)
            let n ← if d.isDigit then name Char.isDigit fuel [] else name isNameChar fuel []
            if ← takeIf '\x7d' then return .parameter n .length else bad
          else
            let e ← take true
            if d ≠ '\x7d' && e = some '\x7d' then
              if isSpecial d then return .parameter (.singleton d) .length
              else
                putBack e
                bad
            else
              putBack e
              putBack (some d)
              change fuel inQuotes "#"
      else if isSpecial c then change fuel inQuotes (.singleton c)
      else
        putBack (some c)
        bad

/-- What is done with a parameter between braces, after its name. -/
def change : Nat → Bool → String → Reading Part
  | 0, _, _ => fail "Bad substitution"
  | fuel + 1, inQuotes, n => do
    match ← take true with
    | some '\x7d' => return .parameter n .keep
    | some ':' =>
      match wordChange? (← peek true) true with
      | some make =>
        skip
        return .parameter n (make (← parts fuel (.braces inQuotes) [] []))
      | none =>
        if (← peek true) = some '\x7d' then
          skip
          let _ ← parts fuel (.braces inQuotes) [] []
          return .parameter n .keep
        else
          let _ ← parts fuel (.braces inQuotes) [] []
          return .parameter n .unknown
    | some '#' =>
      let longest ← takeIf '#'
      return .parameter n (.withoutFront longest (← parts fuel (.braces false) [] []))
    | some '%' =>
      let longest ← takeIf '%'
      return .parameter n (.withoutBack longest (← parts fuel (.braces false) [] []))
    | c =>
      match wordChange? c false with
      | some make => return .parameter n (make (← parts fuel (.braces inQuotes) [] []))
      | none =>
        putBack c
        let _ ← parts fuel (.braces inQuotes) [] []
        return .parameter n .unknown

/-- Takes the documents that redirections of the line before ask for. -/
def takeDocuments : Nat → List Awaiting → Reading Unit
  | fuel + 1, a :: rest => do
    let word ← if a.quoted then do
        let text ← plainDocument a fuel []
        pure [Part.literal (.ofList text)]
      else if ← beginsLine a then pure []
      else parts fuel (.document a) [] []
    modify fun s => { s with documents := (a.number, word) :: s.documents }
    takeDocuments fuel rest
  | _, _ => return

def documents : Nat → Reading Unit
  | 0 => return
  | fuel + 1 => do
    let awaiting := (← get).awaiting
    modify fun s => { s with awaiting := [] }
    takeDocuments fuel awaiting

def rawToken : Nat → Setting → Reading Token
  | 0, _ => fail "Text too long"
  | fuel + 1, setting => do
    match (← get).pushedBack with
    | some t =>
      modify fun s => { s with pushedBack := none }
      return t
    | none =>
      match ← take true with
      | none => return .endOfFile
      | some ' ' => rawToken fuel setting
      | some '\t' => rawToken fuel setting
      | some '#' =>
        modify fun s => comment s s.rest
        rawToken fuel setting
      | some '\n' =>
        nextLine
        return .newline
      | some '&' => return if ← takeIf '&' then .andAnd else .ampersand
      | some '|' => return if ← takeIf '|' then .orOr else .bar
      | some ';' => return if ← takeIf ';' then .doubleSemicolon else .semicolon
      | some '(' => return .openParen
      | some ')' => return .closeParen
      | some c =>
        putBack (some c)
        let w ← parts fuel setting [] []
        match arrowDigit? w, (← get).rest.head? with
        | some digit, some '<' =>
          skip
          arrow '<' digit
        | some digit, some '>' =>
          skip
          arrow '>' digit
        | _, _ => return .word w

/-- The next token below newlines, with the documents that stand there. -/
def belowNewlines : Nat → Token → Reading Token
  | fuel + 1, .newline => do
    documents fuel
    belowNewlines fuel (← rawToken fuel .word)
  | _, t => return t

def token : Nat → Check → Reading Token
  | 0, _ => fail "Text too long"
  | fuel + 1, check => do
    let t ← rawToken fuel .word
    let t ← if check.newlines then belowNewlines fuel t else pure t
    let s ← get
    let check := { check with aliases := check.aliases || s.asksAlias }
    set { s with asksAlias := false }
    match t with
    | .word w =>
      match w.plain? with
      | none => return t
      | some text =>
        if check.keywords && text ∈ keywords then return .keyword text
        else if check.aliases && !isInUse s text then
          match s.aliases.lookup text with
          | some value =>
            modify fun s => enterAlias s text value
            token fuel check
          | none => return t
        else return t
    | _ => return t

/-- A list of commands. Nothing comes back for the end of the text. -/
def list : Nat → Listing → Reading (Option Recipe)
  | 0, _ => fail "Text too long"
  | fuel + 1, listing => commands fuel listing (listing = .bracketed) none

/-- The commands of a list after those that were read. With `mayEnd`, the list may end here. -/
def commands : Nat → Listing → Bool → Option Recipe → Reading (Option Recipe)
  | 0, _, _, _ => fail "Text too long"
  | fuel + 1, listing, mayEnd, seen => do
    match ← token fuel (if listing = .line then .command else .commandBelow) with
    | .newline =>
      documents fuel
      return some (seen.getD .nothing)
    | .endOfFile =>
      documents fuel
      pushBack .endOfFile
      return if listing = .line then seen else some (seen.getD .nothing)
    | t =>
      pushBack t
      if mayEnd && listing != .line && t.endsList then return some (seen.getD .nothing)
      let line := (← get).line
      let recipe ← andOr fuel
      let t ← token fuel .plain
      let recipe := match t with
        | .ampersand => .beside line recipe
        | _ => recipe
      let all := match seen with
        | none => recipe
        | some before => .sequence before recipe
      match t with
      | .endOfFile =>
        documents fuel
        pushBack .endOfFile
        return some all
      | .newline =>
        pushBack t
        commands fuel listing true (some all)
      | .ampersand => commands fuel listing true (some all)
      | .semicolon => commands fuel listing true (some all)
      | t =>
        if listing = .line then unexpected t
        pushBack t
        return some all

/-- A list of commands that must not be empty. -/
def compound : Nat → Reading Recipe
  | 0 => fail "Text too long"
  | fuel + 1 => return (← list fuel .compound).getD .nothing

/-- Pipelines joined by `&&` and `||`. -/
def andOr : Nat → Reading Recipe
  | 0 => fail "Text too long"
  | fuel + 1 => do
    let first ← pipeline fuel .plain
    andOrRest fuel first

/-- What is joined to a recipe by `&&` and `||`. -/
def andOrRest : Nat → Recipe → Reading Recipe
  | 0, _ => fail "Text too long"
  | fuel + 1, first => do
    match ← token fuel .plain with
    | .andAnd => andOrRest fuel (.and first (← pipeline fuel .commandBelow))
    | .orOr => andOrRest fuel (.or first (← pipeline fuel .commandBelow))
    | t =>
      pushBack t
      return first

/-- Commands joined by `|`. -/
def pipeline : Nat → Check → Reading Recipe
  | 0, _ => fail "Text too long"
  | fuel + 1, check => do
    let t ← token fuel check
    let negated := t.isKeyword "!"
    if !negated then pushBack t
    let first ← command fuel (if negated then .command else .plain)
    let all ← pipelineRest fuel [first]
    let recipe := match all with
      | [one] => one
      | all => .pipeline all
    return if negated then .not recipe else recipe

/-- The commands of a pipeline after those that were read, last one first. -/
def pipelineRest : Nat → List Recipe → Reading (List Recipe)
  | 0, _ => fail "Text too long"
  | fuel + 1, seen => do
    match ← token fuel .plain with
    | .bar => pipelineRest fuel ((← command fuel .commandBelow) :: seen)
    | t =>
      pushBack t
      return seen.reverse

def command : Nat → Check → Reading Recipe
  | 0, _ => fail "Text too long"
  | fuel + 1, check => do
    let line := (← get).line
    match ← token fuel check with
    | .keyword "if" => ending fuel line "fi" (← choice fuel)
    | .keyword "while" => ending fuel line "done" (← loop fuel false)
    | .keyword "until" => ending fuel line "done" (← loop fuel true)
    | .keyword "for" => ending fuel line "done" (← forEach fuel line)
    | .keyword "case" => redirected fuel line (← select fuel line)
    | .keyword "\x7b" => ending fuel line "\x7d" (← compound fuel)
    | .openParen =>
      let body ← compound fuel
      match ← token fuel .plain with
      | .closeParen => redirected fuel line (.apart line body [])
      | t => expected t .closeParen
    | .word w =>
      pushBack (.word w)
      simple fuel
    | .arrow d a =>
      pushBack (.arrow d a)
      simple fuel
    | t => unexpected t

/-- The end of a compound command, and its redirections. -/
def ending : Nat → Nat → String → Recipe → Reading Recipe
  | 0, _, _, _ => fail "Text too long"
  | fuel + 1, line, word, recipe => do
    let t ← token fuel .plain
    if t.isKeyword word then redirected fuel line recipe else expected t (.keyword word)

/-- The redirections after a compound command. -/
def redirected : Nat → Nat → Recipe → Reading Recipe
  | 0, _, _ => fail "Text too long"
  | fuel + 1, line, recipe => do
    match recipe, ← redirections fuel .command [] with
    | recipe, [] => return recipe
    | .apart line recipe _, rs => return .apart line recipe rs
    | recipe, rs => return .redirected line recipe rs

/-- Redirections after those that were read, last one first. -/
def redirections : Nat → Check → List Redirection → Reading (List Redirection)
  | 0, _, _ => fail "Text too long"
  | fuel + 1, check, seen => do
    match ← token fuel check with
    | .arrow d a => redirections fuel .plain ((← redirection fuel d a) :: seen)
    | t =>
      pushBack t
      return seen.reverse

def redirection : Nat → Nat → Arrow → Reading Redirection
  | 0, _, _ => fail "Text too long"
  | fuel + 1, d, a => do
    match a with
    | .document stripsTabs =>
      match ← rawToken fuel .mark with
      | .word w =>
        let text : Part → List Char
          | .text t => t.toList
          | .literal t => t.toList
          | .quoted ps => ps.flatMap fun
            | .text t => t.toList
            | .literal t => t.toList
            | _ => []
          | _ => []
        let s ← get
        let number := s.nextDocument
        let awaiting := ⟨number, w.flatMap text, stripsTabs, w.plain?.isNone⟩
        set { s with nextDocument := number + 1, awaiting := s.awaiting ++ [awaiting] }
        return .document d number
      | t => unexpected t
    | a =>
      match ← token fuel .plain with
      | .word w =>
        match a with
        | .source => return .fromFile d w
        | .target anyway => return .toFile d anyway w
        | .append => return .appendTo d w
        | .update => return .update d w
        | _ => return .copy d w
      | t => unexpected t

/-- A choice, after `if` or `elif`. -/
def choice : Nat → Reading Recipe
  | 0 => fail "Text too long"
  | fuel + 1 => do
    let test ← compound fuel
    let t ← token fuel .plain
    if !t.isKeyword "then" then expected t (.keyword "then")
    let yes ← compound fuel
    let t ← token fuel .plain
    if t.isKeyword "elif" then return .choice test yes (← choice fuel)
    else if t.isKeyword "else" then return .choice test yes (← compound fuel)
    else
      pushBack t
      return .choice test yes .nothing

/-- A loop, after its first word. -/
def loop : Nat → Bool → Reading Recipe
  | 0, _ => fail "Text too long"
  | fuel + 1, untilSuccess => do
    let test ← compound fuel
    let t ← token fuel .plain
    if !t.isKeyword "do" then expected t (.keyword "do")
    return .loop untilSuccess test (← compound fuel)

/-- A loop over words, after `for`. -/
def forEach : Nat → Nat → Reading Recipe
  | 0, _ => fail "Text too long"
  | fuel + 1, line => do
    let loopName ← match ← token fuel .plain with
      | .word w =>
        match w.plain? with
        | some n => if isName n.toList then pure n else fail "Bad for loop variable"
        | none => fail "Bad for loop variable"
      | _ => fail "Bad for loop variable"
    let t ← token fuel .commandBelow
    let values ← if t.isKeyword "in" then do
        let (values, t) ← words fuel []
        match t with
        | .newline => pure ()
        | .semicolon => pure ()
        | t => unexpected t
        pure values
      else do
        match t with
        | .semicolon => pure ()
        | t => pushBack t
        pure [[Part.quoted [.parameter "@" .keep]]]
    let t ← token fuel .commandBelow
    if !t.isKeyword "do" then expected t (.keyword "do")
    return .forEach line loopName values (← compound fuel)

/-- Words after those that were read, last one first, and the token after them. -/
def words : Nat → List Word → Reading (List Word × Token)
  | 0, _ => fail "Text too long"
  | fuel + 1, seen => do
    match ← token fuel .plain with
    | .word w => words fuel (w :: seen)
    | t => return (seen.reverse, t)

/-- A choice between patterns, after `case`. -/
def select : Nat → Nat → Reading Recipe
  | 0, _ => fail "Text too long"
  | fuel + 1, line => do
    let subject ← match ← token fuel .plain with
      | .word w => pure w
      | t => expected t (.word [])
    let t ← token fuel .keywordBelow
    if !t.isKeyword "in" then expected t (.keyword "in")
    return .select line subject (← arms fuel [])

/-- The arms of a choice between patterns, up to its end. -/
def arms : Nat → List (List Word × Recipe) → Reading (List (List Word × Recipe))
  | 0, _ => fail "Text too long"
  | fuel + 1, seen => do
    let t ← token fuel .keywordBelow
    if t.isKeyword "esac" then return seen.reverse
    let t ← match t with
      | .openParen => token fuel .plain
      | t => pure t
    let patterns ← patternsFrom fuel t []
    let body := (← list fuel .bracketed).getD .nothing
    let t ← token fuel .keywordBelow
    if t.isKeyword "esac" then return ((patterns, body) :: seen).reverse
    else
      match t with
      | .doubleSemicolon => arms fuel ((patterns, body) :: seen)
      | t => expected t .doubleSemicolon

/-- The patterns of an arm, up to its closing parenthesis. -/
def patternsFrom : Nat → Token → List Word → Reading (List Word)
  | 0, _, _ => fail "Text too long"
  | fuel + 1, t, seen => do
    let pattern : Word := match t with
      | .word w => w
      | .keyword k => [.text k]
      | _ => []
    match ← token fuel .plain with
    | .bar => patternsFrom fuel (← token fuel .plain) (pattern :: seen)
    | .closeParen => return (pattern :: seen).reverse
    | t => expected t .closeParen

/-- A simple command or a definition of a function. -/
def simple : Nat → Reading Recipe
  | 0 => fail "Text too long"
  | fuel + 1 => do simpleRest fuel (← get).line true [] [] []

/-- A simple command after the settings, words and redirections that were read, each with the last one first. With
`settles`, a word may still be a setting. -/
def simpleRest : Nat → Nat → Bool → List (String × Word) → List Word → List Redirection → Reading Recipe
  | 0, _, _, _, _, _ => fail "Text too long"
  | fuel + 1, line, settles, settings, ws, rs => do
    let t ← token fuel ⟨false, false, settles⟩
    let whole : Recipe := .simple line settings.reverse ws.reverse rs.reverse
    match t with
    | .word w =>
      match settles, w.setting? with
      | true, some setting => simpleRest fuel line true (setting :: settings) ws rs
      | _, _ => simpleRest fuel line false settings (w :: ws) rs
    | .arrow d a => simpleRest fuel line settles settings ws ((← redirection fuel d a) :: rs)
    | .openParen =>
      match settings, ws, rs with
      | [], [w], [] => definition fuel w
      | _, _, _ =>
        pushBack t
        return whole
    | t =>
      pushBack t
      return whole

/-- A definition of a function, after its name and the opening parenthesis. -/
def definition : Nat → Word → Reading Recipe
  | 0, _ => fail "Text too long"
  | fuel + 1, w => do
    match ← token fuel .plain with
    | .closeParen =>
      match w.plain? with
      | some n =>
        if isName n.toList && !specialTools.contains n then
          let line := (← get).line
          return .define line n (← command fuel .commandBelow)
        else fail "Bad function name"
      | none => fail "Bad function name"
    | t => expected t .closeParen

end

end Reading

def Source.ofText (text : List Char) (line : Nat) (aliases : List (String × String)) (nextDocument : Nat) : Source :=
  ⟨text, line, aliases, [], [], false, none, [], [], nextDocument⟩

/-- How often the reader may call itself for a text. -/
def readingLimit (text : List Char) : Nat := 16 * text.length + 256

/-- The next command of a text, or nothing at its end. `limit` is how often the reader may call itself for the text as it
stands. Each of its words may be the name of an alias. -/
def readCommand (limit : Nat) (s : Source) : Except SyntaxError (Option Recipe × Source) :=
  (Reading.list (limit * (s.aliases.foldl (fun n a => n + a.2.length) 1)) .line).run s

/-- The parts of a text as it would stand between double quotes. -/
def readQuoted (text : List Char) : Except SyntaxError Word :=
  let text := text ++ ['"']
  ((Reading.parts (readingLimit text) .double [] []).run (.ofText text 1 [] 0)).map Prod.fst

end CompileDb.Shell
