/-
# Invocations

An invocation is what a command line asks for: a command with its choices, at a log level. A
command line that asks for help, or that has a fault, leads to a screen instead.

* `Command`: what can be asked for.
* `Detour`: a screen that is shown instead.
* `Invocation.read`: the invocation that a command line writes.
* `run`: what the program does on a command line.
-/
import ContextAtlas.Cli.Reading
import ContextAtlas.Cli.Screen
import ContextAtlas.Document
import ContextAtlas.Text.Integer
import ContextAtlas.Workspace.Check

namespace ContextAtlas.Cli

/-! ## 1. Commands -/

/-- What a command line can ask for. -/
inductive Command where
  | create (directory : Path)
  | check (directory : Path) (strict : Bool)
  | dump (document : Path) (indent : Option Int) (strict : Bool)
deriving DecidableEq

/-- What is shown instead of running a command: the help of a screen, or what is wrong. -/
inductive Detour where
  | help (screen : Screen)
  | wrong (screen : Screen) (fault : ArgumentFault)
deriving DecidableEq

/-- A command, if there is one, and the log level, if one is given. -/
structure Invocation where
  level : Option LogLevel
  command : Option Command
deriving DecidableEq

/-! ## 2. Choices -/

/-- What the options and operands of a screen choose. The indentation can be announced and then be
missing. -/
structure Choices where
  level : Option LogLevel := none
  indent : Option Int := some 2
  strict : Bool := false
  operands : List String := []

/-- The level of the log unless something else is chosen. -/
def standardLevel : LogLevel := .warning

/-- What an option chooses whose value is the separator, which never counts as a value: the
standard level, and no indentation. -/
def Choices.takeNothing (c : Choices) : Valued → Choices
  | .logLevel => { c with level := some standardLevel }
  | .indent => { c with indent := none }

/-- What one step chooses. -/
def Choices.take (screen : Screen) (c : Choices) : Step → Except Detour Choices
  | .flag .help => .error (.help screen)
  | .flag .strict => .ok { c with strict := true }
  | .value v word =>
    if word = separator then .ok (c.takeNothing v)
    else
      match v with
      | .logLevel =>
        match (Spelled.read? word : Option LogLevel) with
        | some level => .ok { c with level := some level }
        | none => .error (.wrong screen (.notChoice v.title word LogLevel.names))
      | .indent =>
        match Text.parseInteger? 10 word.toList with
        | some n => .ok { c with indent := some n }
        | none => .error (.wrong screen (.notInteger v.title word))
  | .operands texts => .ok { c with operands := texts }

/-- The choices that some words make on a screen, and the words left over. -/
def Choices.read (screen : Screen) (texts : List String) :
    Except Detour (Choices × List String) := do
  let reading := screen.grammar.read texts
  let choices ← reading.steps.foldlM (Choices.take screen) {}
  match reading.ending with
  | .ok left => .ok (choices, left)
  | .error fault => .error (.wrong screen fault)

/-- The path that the operand of a screen writes; without an operand, the current directory. -/
def Choices.path (c : Choices) : Path := Path.ofText (c.operands.headD ".")

/-- The command of a screen with its choices. -/
def Choices.command? (c : Choices) : Screen → Option Command
  | .main => none
  | .init => some (.create c.path)
  | .check => some (.check c.path c.strict)
  | .dump => some (.dump c.path c.indent c.strict)

/-! ## 3. Invocations -/

/-- The command that some words write, the first of them being its name, and the words left
over. -/
def readCommand : List String → Except Detour (Option Command × List String)
  | [] => .ok (none, [])
  | name :: texts =>
    match Screen.ofWord? name with
    | none =>
      .error (.wrong .main
        (.notChoice Screen.commandTitle name (Screen.commands.map Screen.word)))
    | some screen => do
      let (choices, left) ← Choices.read screen texts
      .ok (choices.command? screen, left)

/-- The invocation that a command line writes. -/
def Invocation.read (texts : List String) : Except Detour Invocation := do
  let (choices, left) ← Choices.read .main texts
  let (command, more) ← readCommand choices.operands
  match left ++ more with
  | [] => .ok ⟨choices.level, command⟩
  | words => .error (.wrong .main (.unrecognized words))

/-! ## 4. Runs -/

/-- What a detour shows. -/
def Detour.transcript : Detour → Transcript
  | .help screen => .exit 0 [.out screen.help]
  | .wrong screen fault =>
    .exit 2 [.err screen.usage, .err (screen.caller ++ ": error: " ++ fault.message)]

/-- What an invocation does. -/
def Invocation.run (files : FileTree) (i : Invocation) : Transcript :=
  match i.command with
  | none => (Detour.help .main).transcript
  | some (.create directory) => Workspace.create files directory
  | some (.check directory strict) => Workspace.check files i.level directory strict
  | some (.dump document indent strict) =>
    Document.dump files (i.level.getD standardLevel) document indent strict

/-- What the program does on a command line. -/
def run (files : FileTree) (texts : List String) : Transcript :=
  match Invocation.read texts with
  | .ok invocation => invocation.run files
  | .error detour => detour.transcript

end ContextAtlas.Cli
