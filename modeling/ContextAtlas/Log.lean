/-
# The log

While documents are read, a log tells what happens: which document is read, what is left out of
it, and how much it holds in the end. A line of the log names its level and the part of the
program that tells it, and it is printed only if the level reaches a threshold.
-/
import ContextAtlas.LogLevel
import ContextAtlas.Report
import ContextAtlas.Transcript

namespace ContextAtlas

/-- The part of the program that tells a line of the log. -/
inductive Teller where
  | commandLine
  | reader
deriving DecidableEq

/-- The name of a part of the program in the log. -/
def Teller.name : Teller → String
  | commandLine => "cmlmodel.cli.main"
  | reader => "cmlmodel.parser.parser"

/-- A line of the log. -/
structure LogLine where
  level : LogLevel
  teller : Teller
  text : String
deriving DecidableEq

/-- How a line of the log is printed. -/
def LogLine.line (l : LogLine) : Line :=
  .err (Spelled.spell l.level ++ " " ++ l.teller.name ++ ": " ++ l.text)

/-- The lines of a log that reach a threshold, as they are printed. -/
def printLog (threshold : LogLevel) (log : List LogLine) : List Line :=
  (log.filter (·.level.isTold threshold)).map LogLine.line

/-- What the log says about a note. -/
def Note.logText : Note → String
  | .skipped s =>
    "Skipped " ++ s.reason.message ++ " at line " ++ toString s.line ++ ": " ++ s.fragment
  | .extraContextMaps count => "Ignoring " ++ toString count ++ " additional context map(s)"

/-- How much a document holds. -/
def Report.summary (r : Report) : String :=
  toString r.model.contexts.length ++ " bounded context(s), "
    ++ toString r.model.relationships.length ++ " relationship(s)"

/-- The log of a reading: its notes in order, and how much was read and left out. -/
def Report.log (r : Report) : List LogLine :=
  r.notes.map (fun n => ⟨.debug, .reader, n.logText⟩)
    ++ [⟨.debug, .reader,
      "Parsed " ++ toString r.model.contexts.length ++ " bounded context(s) and "
        ++ toString r.model.relationships.length ++ " relationship(s), skipped "
        ++ toString r.skipped.length ++ " fragment(s)"⟩]

end ContextAtlas
