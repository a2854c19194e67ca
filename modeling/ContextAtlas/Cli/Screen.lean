/-
# Screens

The command line and each of its commands has a screen: what options and operands it takes, how it
is called, its usage in short, and its help in full.
-/
import ContextAtlas.Cli.Switch
import ContextAtlas.LogLevel
import ContextAtlas.Workspace.Config

namespace ContextAtlas.Cli

/-- The command line as a whole, or one of its commands. -/
inductive Screen where
  | main
  | init
  | check
  | dump
deriving DecidableEq

namespace Screen

/-- The commands. -/
def commands : List Screen := [.init, .check, .dump]

/-- The name of the program. -/
def programName : String := "cmlmodel"

/-- The word that names a command. -/
def word : Screen → String
  | main => ""
  | init => "init"
  | check => "check"
  | dump => "dump"

/-- The command that a word names. -/
def ofWord? (text : String) : Option Screen := commands.find? fun s => s.word = text

/-- How a screen calls the program. -/
def caller : Screen → String
  | main => programName
  | s => programName ++ " " ++ s.word

/-- How messages call the place of the command. -/
def commandTitle : String := "COMMAND"

/-- The options and operands of a screen. -/
def grammar : Screen → Grammar
  | main => ⟨[.flag .help, .valued .logLevel], .command⟩
  | init => ⟨[.flag .help], .atMostOne⟩
  | check => ⟨[.flag .help, .flag .strict], .atMostOne⟩
  | dump => ⟨[.flag .help, .valued .indent, .flag .strict], .one "file"⟩

/-- The levels that can be chosen, as usage texts list them. -/
def levelChoices : String := "\x7b" ++ String.intercalate "," LogLevel.names ++ "\x7d"

/-- The usage in short. -/
def usage (s : Screen) : String :=
  "usage: " ++ s.caller ++
    match s with
    | main => " [-h] [--log-level " ++ levelChoices ++ "]\n                COMMAND ..."
    | init => " [-h] [directory]"
    | check => " [-h] [--strict] [directory]"
    | dump => " [-h] [--indent INDENT] [--strict] file"

/-- What a screen says below its usage. -/
def description : Screen → List String
  | main =>
    ["CMLModel: parse Context Mapper (CML) documents into a queryable model",
      "",
      "positional arguments:",
      "  COMMAND",
      "    init                Initialize a new CMLModel workspace",
      "    check               Parse all CML files and report dropped fragments",
      "    dump                Print the parsed model of a CML file as JSON",
      "",
      "options:",
      "  -h, --help            show this help message and exit",
      "  --log-level " ++ levelChoices,
      "                        Logging level (default: from the workspace",
      "                        configuration, else WARNING)"]
  | init =>
    ["Write a default " ++ Config.fileName ++ " into a directory.",
      "",
      "positional arguments:",
      "  directory   Directory to initialize the workspace in (default: current",
      "              directory)",
      "",
      "options:",
      "  -h, --help  show this help message and exit"]
  | check =>
    ["Parse every *.cml file of a workspace and report what could not be read.",
      "",
      "positional arguments:",
      "  directory   Directory containing the CML files (default: current directory)",
      "",
      "options:",
      "  -h, --help  show this help message and exit",
      "  --strict    Treat every dropped fragment as an error"]
  | dump =>
    ["Parse a single CML file and print the resulting model as JSON.",
      "",
      "positional arguments:",
      "  file             Path to the .cml file",
      "",
      "options:",
      "  -h, --help       show this help message and exit",
      "  --indent INDENT  JSON indentation (default: 2)",
      "  --strict         Fail instead of silently dropping malformed fragments"]

/-- The help in full. -/
def help (s : Screen) : String := String.intercalate "\n" (s.usage :: "" :: s.description)

end Screen

end ContextAtlas.Cli
