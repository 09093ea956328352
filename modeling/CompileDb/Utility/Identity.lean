import CompileDb.Utility.Report

/-!
# Who and where

Utilities that tell of the user, of the machine and of where programs are. There is one user, who may do everything, and no
terminal.
-/

namespace CompileDb.Utility

open Host

/-- The only user, who is the only member of a group of the same name. -/
def userName : String := "root"

def withoutOperands (t : OptionTable) (inv : Invocation) (next : List (Char × String) → Action Nat) : Action Nat :=
  withOptions t 1 inv fun options operands =>
    match operands with
    | [] => next options
    | extra :: _ => misused inv.name s!"extra operand {quoted extra}" 1

def whoami (inv : Invocation) : Action Nat := withoutOperands ⟨"", "", []⟩ inv fun _ => report inv (userName ++ "\n")

/-- Tells who has logged in, which nobody has. -/
def logname (inv : Invocation) : Action Nat := withoutOperands ⟨"", "", []⟩ inv fun _ => do
  complain inv.name "no login name"
  return 1

def unknownUsers (inv : Invocation) (operands : List String) : Action Bool := do
  let unknown := operands.filter fun u => u ≠ userName && u ≠ "0"
  for u in unknown do complain inv.name s!"{quoted u}: no such user"
  return !unknown.isEmpty

/-- Tells the number and the groups of a user. -/
def identity (inv : Invocation) : Action Nat :=
  withOptions ⟨"ugGnrza", "", [("user", 'u'), ("group", 'g'), ("groups", 'G'), ("name", 'n'), ("real", 'r')]⟩ 1 inv
    fun options operands => do
      if ← unknownUsers inv operands then return 1
      let chosen := options.any fun (c, _) => c = 'u' || c = 'g' || c = 'G'
      if has options 'n' && !chosen then
        complain inv.name "cannot print only names or real IDs in default format"
        return 1
      let both := s!"0({userName})"
      let text := if !chosen then s!"uid={both} gid={both} groups={both}" else if has options 'n' then userName else "0"
      report inv (text ++ "\n")

def groups (inv : Invocation) : Action Nat :=
  withOptions ⟨"", "", []⟩ 1 inv fun _ operands => do
    if ← unknownUsers inv operands then return 1
    let rows := if operands.isEmpty then [userName] else operands.map fun u => s!"{u} : {userName}"
    report inv (String.join (rows.map (· ++ "\n")))

/-- What is known of the machine, by the letters of options. -/
def machineFacts : List (Char × String) := [('s', "Linux"), ('m', "x86_64"), ('p', "x86_64"), ('i', "x86_64"), ('o', "GNU/Linux")]

def uname (inv : Invocation) : Action Nat :=
  withoutOperands ⟨"smpio", "", [("kernel-name", 's'), ("machine", 'm'), ("operating-system", 'o')]⟩ inv fun options => do
    let chosen := if options.isEmpty then machineFacts.take 1 else machineFacts.filter fun (c, _) => has options c
    report inv (" ".intercalate (chosen.map Prod.snd) ++ "\n")

/-- Tells what the machine can carry out. -/
def arch (inv : Invocation) : Action Nat :=
  withoutOperands ⟨"", "", []⟩ inv fun _ => report inv ((machineFacts.lookup 'm').getD "" ++ "\n")

def tty (inv : Invocation) : Action Nat :=
  withOptions ⟨"s", "", [("silent", 's'), ("quiet", 's')]⟩ 2 inv fun options _ => do
    if !has options 's' then
      let _ ← write 1 "not a tty\n".toList
    return 1

def which (inv : Invocation) : Action Nat := do
  match (⟨"as", "", []⟩ : OptionTable).parse false inv.arguments with
  | .error _ =>
    let wrong := (inv.arguments.find? fun a => a.toList.head? = some '-').getD ""
    let _ ← write 2 s!"Illegal option {wrong}\nUsage: /usr/bin/which [-as] args\n".toList
    return 2
  | .ok (options, operands) =>
    let files ← Action.files
    let isProgram (path : String) : Bool := match files.look ⟨Text.ofOctets path⟩ with
      | .ok (.file _ executable) => executable
      | _ => false
    let search := (inv.environment.lookup searchVariable).getD ""
    let found := operands.map fun name => (candidates search name).filter isProgram
    let shown := found.flatMap fun paths => if has options 'a' then paths else paths.take 1
    let text := if has options 's' then "" else String.join (shown.map (· ++ "\n"))
    Report.deliver ⟨text.toList, [], if operands.isEmpty || found.any List.isEmpty then 1 else 0⟩ inv.name

end CompileDb.Utility
