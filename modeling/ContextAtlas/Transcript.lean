/-
# Transcripts

A command is described by what it does to the world outside: the lines that it prints, the files
that it creates, and how it ends. All of it is a value, so that two runs can be compared.

* `Transcript`: the lines, the new files and the ending.
* `Transcript.text`: what stands on one of the two channels.
* `Stop`: the causes that end a command before its work is done and without a message of its own.
-/
import ContextAtlas.Files.Path
import ContextAtlas.Yaml.Value

namespace ContextAtlas

/-! ## 1. Lines -/

/-- Where a line is printed. -/
inductive Channel where
  | output
  | errors
deriving DecidableEq

/-- A printed line; its text is without the line end. -/
structure Line where
  channel : Channel
  text : String
deriving DecidableEq

/-- A line of output. -/
def Line.out (text : String) : Line := ⟨.output, text⟩

/-- A line about what went wrong, or of the log. -/
def Line.err (text : String) : Line := ⟨.errors, text⟩

/-! ## 2. Endings -/

/-- What stops a command before its end: the bytes of a file are no text; a path that no file can
have; a name that is too long to look for; a document outside the workspace; a file where a
directory has to be; an indentation that no layout has; no indentation where one was announced; a
value in the configuration that cannot be what its tag says. -/
inductive Stop where
  | notText
  | unusableName
  | nameTooLong
  | outsideWorkspace
  | notDirectory
  | impossibleIndent
  | missingIndent
  | value (fault : Yaml.Fault)
deriving DecidableEq

/-- What a user is told about the cause. -/
def Stop.message : Stop → String
  | notText => "a file is not UTF-8"
  | unusableName => "a path holds a character that no file name can hold"
  | nameTooLong => "a file name is too long"
  | outsideWorkspace => "a document is outside the workspace"
  | notDirectory => "a directory is needed where a file is"
  | impossibleIndent => "the indentation is impossible"
  | missingIndent => "the indentation is missing"
  | value _ => "a value of the configuration is not what its tag says"

/-- How a command ends. -/
inductive Ending where
  | exit (code : Nat)
  | stopped (cause : Stop)
deriving DecidableEq

/-! ## 3. Transcripts -/

/-- What a command does. -/
structure Transcript where
  lines : List Line
  created : List (Path × String)
  ending : Ending
deriving DecidableEq

namespace Transcript

/-- A command that prints some lines and exits. -/
def exit (code : Nat) (lines : List Line) : Transcript := ⟨lines, [], .exit code⟩

/-- A command that fails with one message. -/
def fail (message : String) : Transcript := exit 1 [.err ("Error: " ++ message)]

/-- A command that is stopped after some lines. -/
def stop (cause : Stop) (lines : List Line) : Transcript := ⟨lines, [], .stopped cause⟩

/-- Prints some lines before all else. -/
def after (t : Transcript) (lines : List Line) : Transcript := { t with lines := lines ++ t.lines }

/-- What stands on a channel in the end. -/
def text (t : Transcript) (channel : Channel) : String :=
  String.join ((t.lines.filter (·.channel = channel)).map (·.text ++ "\n"))

end Transcript

end ContextAtlas
