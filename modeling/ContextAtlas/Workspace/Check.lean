/-
# Checking a workspace

Every document below the source directory is read in the order of the paths, and what could not be
read is reported. Under strict checking each skipped run is an error, otherwise a warning; a file
that cannot be read is always an error, and the other documents are checked all the same.

* `Findings`: the lines on some documents, and whether an error is among them.
* `checkDocument`, `checkDocuments`: the findings on one document and on a list of them.
* `check`: the whole command.
-/
import ContextAtlas.Log
import ContextAtlas.Workspace

namespace ContextAtlas.Workspace

/-! ## 1. Findings -/

/-- What is printed about some documents, and whether the check has failed on one. -/
structure Findings where
  lines : List Line
  failed : Bool
deriving DecidableEq

namespace Findings

/-- The findings on no document. -/
def empty : Findings := ⟨[], false⟩

/-- The findings on some documents and on some more. -/
def append (a b : Findings) : Findings := ⟨a.lines ++ b.lines, a.failed || b.failed⟩

@[simp] theorem lines_append (a b : Findings) : (a.append b).lines = a.lines ++ b.lines := rfl

@[simp] theorem failed_append (a b : Findings) : (a.append b).failed = (a.failed || b.failed) :=
  rfl

end Findings

/-! ## 2. Documents -/

/-- What is said about a skipped run of a document. -/
def skipMessage (label : String) (s : Skipped) : String :=
  label ++ ":" ++ toString s.line ++ ": " ++ s.reason.message ++ ": " ++ s.fragment

/-- The line on a skipped run: an error under strict checking, otherwise a warning. -/
def skipLine (strict : Bool) (label : String) (s : Skipped) : Line :=
  if strict then .err ("Error: " ++ skipMessage label s)
  else .out ("Warning: " ++ skipMessage label s)

/-- The line that says how much a document holds. -/
def summaryLine (label : String) (r : Report) : Line := .out ("  " ++ label ++ ": " ++ r.summary)

/-- What is printed about a document that has been read. -/
def documentFindings (threshold : LogLevel) (strict : Bool) (label : String) (r : Report) :
    Findings where
  lines :=
    printLog threshold (⟨.info, .commandLine, "Parsing " ++ label⟩ :: r.log)
      ++ summaryLine label r :: r.skipped.map (skipLine strict label)
  failed := strict && !r.skipped.isEmpty

/-- What is printed about a file that cannot be read. -/
def refusalFindings (label : String) (e : FileError) : Findings :=
  ⟨[.err ("Error: cannot read '" ++ label ++ "': " ++ e.message)], true⟩

/-- Checks the document at a path. -/
def checkDocument (files : FileTree) (threshold : LogLevel) (strict : Bool) (root path : Path) :
    Except Stop Findings :=
  match path.relativeTo? root with
  | none => .error .outsideWorkspace
  | some label =>
    match files.readText path with
    | .ok source => .ok (documentFindings threshold strict label.text (Report.ofText source))
    | .error (.refused e) => .ok (refusalFindings label.text e)
    | .error .notText => .error .notText
    | .error .unusableName => .error .unusableName

/-- Checks some documents in turn, up to the first that stops the check. -/
def checkDocuments (files : FileTree) (threshold : LogLevel) (strict : Bool) (root : Path) :
    List Path → Findings × Option Stop
  | [] => (.empty, none)
  | path :: rest =>
    match checkDocument files threshold strict root path with
    | .error cause => (.empty, some cause)
    | .ok findings =>
      let (more, cause?) := checkDocuments files threshold strict root rest
      (findings.append more, cause?)

/-! ## 3. Workspaces -/

/-- Checks the documents of a workspace. -/
def checkAll (files : FileTree) (threshold : LogLevel) (strict : Bool) (root : Path)
    (documents : List Path) : Transcript :=
  if documents.isEmpty then .exit 0 [.out "No .cml files found in the workspace."]
  else
    let (findings, cause?) := checkDocuments files threshold strict root documents
    let lines :=
      .out ("Checking " ++ toString documents.length ++ " CML file(s)...") :: findings.lines
    match cause? with
    | some cause => .stop cause lines
    | none =>
      if findings.failed then .exit 1 lines
      else .exit 0 (lines ++ [.out "No issues found."])

/-- Checks a workspace. A log level that is given counts before the one of the configuration. -/
def check (files : FileTree) (given : Option LogLevel) (directory : Path) (strict : Bool) :
    Transcript :=
  conclude do
    let root ← findRoot files directory
    let config ← findConfig files root
    let sources ← findSources files root config
    .ok (checkAll files (given.getD config.logLevel) (strict || config.strict) root
      (files.findBelow documentEnding sources))

end ContextAtlas.Workspace
