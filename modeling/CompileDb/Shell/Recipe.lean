/-!
# Recipes

A recipe is what a shell is given to do: simple commands, joined by the shell's words and signs. Its words are kept in
parts, because a part has a value only when the recipe is carried out. Texts are octets: one character for each byte.
-/

namespace CompileDb.Shell

mutual

/-- A part of a word. -/
inductive Part where
  /-- Characters as they are written. -/
  | text (text : String)
  /-- Characters that stand for themselves, like one after a backslash. -/
  | literal (text : String)
  /-- What stands between quotes. Even if it is empty, it makes a field. -/
  | quoted (parts : List Part)
  | parameter (name : String) (change : Change)
  /-- The value of an arithmetic formula. -/
  | sum (formula : List Part)
  /-- What a recipe writes, without the newlines at its end. -/
  | output (recipe : Recipe)

/-- What is done with the value of a parameter. The word stands for a parameter that is not set, or also for one that is
empty. -/
inductive Change where
  | keep
  | length
  /-- The word stands for the parameter. -/
  | orElse (forEmpty : Bool) (word : List Part)
  /-- The word becomes the value of the parameter. -/
  | orAssign (forEmpty : Bool) (word : List Part)
  /-- The word is a complaint. -/
  | orComplain (forEmpty : Bool) (word : List Part)
  /-- The word stands for a parameter that is set, and perhaps only if it is not empty. -/
  | ifSet (notEmpty : Bool) (word : List Part)
  /-- Without what a pattern matches at the front. -/
  | withoutFront (longest : Bool) (pattern : List Part)
  /-- Without what a pattern matches at the back. -/
  | withoutBack (longest : Bool) (pattern : List Part)
  /-- No change that a shell knows. -/
  | unknown

/-- Where a descriptor is led. -/
inductive Redirection where
  | fromFile (descriptor : Nat) (source : List Part)
  /-- A file to be written from its beginning. With `anyway`, also one that is there and should be kept. -/
  | toFile (descriptor : Nat) (anyway : Bool) (target : List Part)
  | appendTo (descriptor : Nat) (target : List Part)
  /-- A file to be read and written. -/
  | update (descriptor : Nat) (target : List Part)
  /-- To where another descriptor leads, or nowhere if the word is a dash. -/
  | copy (descriptor : Nat) (source : List Part)
  /-- From a text that stands with the recipe, by its number. -/
  | document (descriptor : Nat) (number : Nat)

/-- A recipe. `line` is the number of the line where a command begins. -/
inductive Recipe where
  | nothing
  | simple (line : Nat) (settings : List (String × List Part)) (words : List (List Part))
    (redirections : List Redirection)
  | sequence (first second : Recipe)
  /-- The second recipe is carried out only if the first succeeds. -/
  | and (first second : Recipe)
  /-- The second recipe is carried out only if the first fails. -/
  | or (first second : Recipe)
  | not (recipe : Recipe)
  /-- Each recipe reads what the one before it writes. -/
  | pipeline (recipes : List Recipe)
  /-- Carried out beside what follows. -/
  | beside (line : Nat) (recipe : Recipe)
  | redirected (line : Nat) (recipe : Recipe) (redirections : List Redirection)
  /-- Carried out in a shell of its own. -/
  | apart (line : Nat) (recipe : Recipe) (redirections : List Redirection)
  | choice (test yes no : Recipe)
  /-- Carried out again and again while the test succeeds, or until it does. -/
  | loop (untilSuccess : Bool) (test body : Recipe)
  | forEach (line : Nat) (name : String) (words : List (List Part)) (body : Recipe)
  /-- The first arm with a pattern that matches is carried out. -/
  | select (line : Nat) (word : List Part) (arms : List (List (List Part) × Recipe))
  | define (line : Nat) (name : String) (body : Recipe)

end

abbrev Word := List Part

/-- The text of a word that is written without quotes and values. -/
def Word.plain? : Word → Option String
  | [] => some ""
  | [.text t] => some t
  | _ => none

/-! ## Names -/

def isNameStart (c : Char) : Bool := c.isAlpha || c == '_'

def isNameChar (c : Char) : Bool := c.isAlphanum || c == '_'

def isName (text : List Char) : Bool :=
  match text with
  | c :: rest => isNameStart c && rest.all isNameChar
  | [] => false

/-- The name and the value of a setting that is written as `name=value`. -/
def setting? (text : List Char) : Option (String × List Char) :=
  let name := text.takeWhile isNameChar
  match text.dropWhile isNameChar with
  | '=' :: value => if isName name then some (.ofList name, value) else none
  | _ => none

def Word.setting? : Word → Option (String × Word)
  | .text t :: rest =>
    match Shell.setting? t.toList with
    | some (name, []) => some (name, rest)
    | some (name, value) => some (name, .text (.ofList value) :: rest)
    | none => none
  | _ => none

/-- The number that decimal digits stand for. -/
def decimal? (text : List Char) : Option Nat :=
  if text.isEmpty || !text.all Char.isDigit then none
  else some (text.foldl (fun n c => 10 * n + (c.toNat - 48)) 0)


/-- The tools of the shell whose failure ends it. -/
def specialTools : List String :=
  [".", ":", "break", "continue", "eval", "exec", "exit", "export", "local", "readonly", "return", "set", "shift", "times",
    "trap", "unset"]

end CompileDb.Shell
