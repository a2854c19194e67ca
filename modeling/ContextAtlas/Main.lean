/-
# The program

The outer layer of the command line. It looks at the part of the file system that a command line
asks about, runs the command on that picture, and does what the transcript says.
-/
import ContextAtlas.Cli.Invocation

namespace ContextAtlas.Program

/-! ## 1. A picture of the file system -/

/-- The text of a location. -/
def locationText (l : Location) : String := (Path.mk .slash l).text

/-- Whether the bytes of a file of this name matter to a command that only names its directory. -/
def isRelevant (name : String) : Bool :=
  name = Config.fileName || Workspace.documentEnding.toList.isSuffixOf name.toList

/-- What stands at a location, if anything does. -/
def nodeAt? (l : Location) : IO (Option FileNode) := do
  try
    let path ← IO.FS.realPath (locationText l)
    if ← path.isDir then return some .directory
    if ← path.pathExists then return some (.file (← IO.FS.readBinFile path))
    return none
  catch _ => return none

/-- Everything below a directory. Links to directories are not followed. -/
partial def entriesBelow (l : Location) : IO (List (Location × FileNode)) := do
  let directory ← IO.FS.realPath (locationText l)
  let mut found := []
  for entry in ← directory.readDir do
    let here := l ++ [entry.fileName]
    if (← entry.path.symlinkMetadata).type == .dir then
      found := (here, .directory) :: (← entriesBelow here) ++ found
    else
      let content ← if isRelevant entry.fileName then IO.FS.readBinFile entry.path else pure .empty
      found := (here, .file content) :: found
  return found

/-- Everything on the way to a location and below it. -/
def entriesAt (l : Location) : IO (List (Location × FileNode)) := do
  let mut found := []
  for k in List.range (l.length + 1) do
    if let some node ← nodeAt? (l.take k) then found := (l.take k, node) :: found
  match ← nodeAt? l with
  | some .directory => return found ++ (← entriesBelow l)
  | _ => return found

/-- The path that a command asks about. -/
def subject : Cli.Command → Path
  | .create directory => directory
  | .check directory _ => directory
  | .dump document _ _ => document

/-- The source directory that a command asks about besides, once the configuration is known. -/
def sources? (files : FileTree) : Cli.Command → Option Path
  | .check directory _ =>
    (do
      let root ← Workspace.findRoot files directory
      let config ← Workspace.findConfig files root
      .ok (root.join (Path.ofText config.sourceDirectory)) : Except Transcript Path).toOption
  | _ => none

/-- A file tree with all that stands at a path. -/
def withPath (files : FileTree) (path : Path) : IO FileTree := do
  let more ← entriesAt (files.resolve path).names
  return { files with entries := files.entries ++ more }

/-- The part of the file system that a command line asks about. -/
def picture (texts : List String) : IO FileTree := do
  let current := Path.namesOf (toString (← IO.currentDir)).toList
  let files : FileTree := ⟨[(current, .directory)], current⟩
  match Cli.Invocation.read texts with
  | .ok ⟨_, some command⟩ =>
    let files ← withPath files (subject command)
    match sources? files command with
    | some sources => withPath files sources
    | none => return files
  | _ => return files

/-! ## 2. Running -/

/-- Does what a transcript says, and returns the exit code. -/
def perform (t : Transcript) : IO UInt32 := do
  for (path, text) in t.created do IO.FS.writeFile path.text text
  for line in t.lines do
    match line.channel with
    | .output => IO.println line.text
    | .errors => IO.eprintln line.text
  match t.ending with
  | .exit code => return code.toUInt32
  | .stopped cause =>
    IO.eprintln (Cli.Screen.programName ++ ": stopped: " ++ cause.message)
    return 1

end ContextAtlas.Program

/-- Runs a command line. -/
def main (texts : List String) : IO UInt32 := do
  let files ← ContextAtlas.Program.picture texts
  ContextAtlas.Program.perform (ContextAtlas.Cli.run files texts)
