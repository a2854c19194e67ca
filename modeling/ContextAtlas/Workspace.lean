/-
# Workspaces

A workspace is a directory with documents and, if it has been created, a configuration.

* `Workspace.findRoot`: the directory that a text names.
* `Workspace.findConfig`: the configuration of a workspace; without a file, the defaults.
* `Workspace.findSources`: the directory that holds the documents.
* `Workspace.create`: a directory becomes a workspace by a configuration file with the defaults.

Each of the first three either finds what it looks for or ends the command with a transcript. A
configuration that is already there is never touched.
-/
import ContextAtlas.Transcript
import ContextAtlas.Workspace.Config

namespace ContextAtlas.Workspace

/-- How the name of a document ends. -/
def documentEnding : String := ".cml"

/-- Where the configuration of a workspace is. -/
def configPath (root : Path) : Path := root.child Config.fileName

/-- What stands at a path. -/
def lookAt (files : FileTree) (path : Path) : Except Transcript (Option FileNode) :=
  match files.look path with
  | .ok node => .ok node
  | .error _ => .error (.stop .nameTooLong [])

/-- The directory that a text names, seen from the root. -/
def findRoot (files : FileTree) (directory : Path) : Except Transcript Path :=
  if directory.isUnusable then .error (.stop .unusableName [])
  else do
    let root := files.resolve directory
    match ← lookAt files root with
    | some _ => .ok root
    | none => .error (.fail ("directory '" ++ root.text ++ "' does not exist."))

/-- How a command ends that finds no configuration where one is. -/
def reportFault : ConfigFault → Transcript
  | .error e => .fail e.message
  | .value fault => .stop (.value fault) []
  | .notText => .stop .notText []
  | .unusableName => .stop .unusableName []

/-- The configuration of a workspace. -/
def findConfig (files : FileTree) (root : Path) : Except Transcript Config := do
  match ← lookAt files (configPath root) with
  | some _ => (Config.load files (configPath root)).mapError reportFault
  | none => .ok {}

/-- The directory that holds the documents of a workspace. -/
def findSources (files : FileTree) (root : Path) (config : Config) : Except Transcript Path := do
  let sources := root.join (Path.ofText config.sourceDirectory)
  let missing := Transcript.fail ("source directory '" ++ sources.text ++ "' does not exist.")
  if sources.isUnusable then .error missing
  else
    match ← lookAt files sources with
    | some .directory => .ok sources
    | _ => .error missing

/-- A command that ended early ended all the same. -/
def conclude : Except Transcript Transcript → Transcript
  | .ok t => t
  | .error t => t

/-- Makes a directory a workspace. -/
def create (files : FileTree) (directory : Path) : Transcript :=
  conclude do
    let root ← findRoot files directory
    let path := configPath root
    match ← lookAt files path, ← lookAt files root with
    | some _, _ => .ok (.fail ("workspace already exists at '" ++ path.text ++ "'."))
    | none, some .directory =>
      .ok
        { lines := [.out ("Initialized CMLModel workspace at '" ++ path.text ++ "'.")]
          created := [(path, Config.defaultText)]
          ending := .exit 0 }
    | none, _ => .ok (.stop .notDirectory [])

end ContextAtlas.Workspace
