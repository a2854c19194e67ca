/-
# Printing the model of one document

A document on its own, in or outside a workspace, is read and its model printed as JSON. A strict
reading refuses a document with a skipped run, and then only says where the first one is.
-/
import ContextAtlas.Files.Tree
import ContextAtlas.Log
import ContextAtlas.Model.Encoding

namespace ContextAtlas.Document

/-- Prints a model. The indentation may be missing, or one that no layout has. -/
def print (model : Model) (indent : Option Int) : Transcript :=
  match indent with
  | none => .stop .missingIndent []
  | some n =>
    match Json.Layout.ofIndent? (some n) with
    | some layout => .exit 0 [.out (model.dump layout)]
    | none => .stop .impossibleIndent []

/-- Reads a text and prints its model, or what a strict reading has against it. -/
def dumpText (threshold : LogLevel) (label source : String) (indent : Option Int)
    (strict : Bool) : Transcript :=
  let outcome : Transcript :=
    match Model.parse source strict with
    | .error first => .fail (label ++ ": " ++ first.complaint)
    | .ok model => print model indent
  outcome.after (printLog threshold (Report.ofText source).log)

/-- Reads a file and prints its model. -/
def dump (files : FileTree) (threshold : LogLevel) (path : Path) (indent : Option Int)
    (strict : Bool) : Transcript :=
  match files.readText path with
  | .ok source => dumpText threshold path.text source indent strict
  | .error (.refused e) => .fail ("cannot read '" ++ path.text ++ "': " ++ e.message)
  | .error .notText => .stop .notText []
  | .error .unusableName => .stop .unusableName []

end ContextAtlas.Document
