/-
# File trees

A file tree says what stands at each location: a file with its bytes, a directory, or nothing. A
location is the list of names from the root down. The text of a file is what its bytes say in UTF-8,
with every line end written as a line feed: a carriage return, alone or with the line feed behind
it, is one line end.

* `FileTree.find?`: what stands at a location.
* `FileTree.walk`: the location that a list of names leads to; double dots lead up, but only from
  a directory that is there.
* `FileTree.readText`: the text of a file, or why there is none, with `FileError.message` as the
  wording.
* `FileTree.findBelow`: everything below a path whose name has an ending, in order of the names.
-/
import ContextAtlas.Files.Path
import ContextAtlas.Text.Printable

namespace ContextAtlas

/-! ## 1. Trees -/

/-- What stands at a location. -/
inductive FileNode where
  | file (content : ByteArray)
  | directory

/-- Whether a directory stands there. -/
def FileNode.isDirectory : FileNode → Bool
  | file _ => false
  | directory => true

/-- The names from the root down. -/
abbrev Location := List String

/-- A file tree and the current directory. What holds an entry is a directory, listed or not. -/
structure FileTree where
  entries : List (Location × FileNode)
  current : Location

/-! ## 2. Problems -/

/-- Why a path leads to nothing that can be read. -/
inductive FileProblem where
  | absent
  | notDirectory
  | isDirectory
  | nameTooLong
deriving DecidableEq

/-- The number of a problem. -/
def FileProblem.number : FileProblem → Nat
  | absent => 2
  | notDirectory => 20
  | isDirectory => 21
  | nameTooLong => 36

/-- The wording of a problem. -/
def FileProblem.message : FileProblem → String
  | absent => "No such file or directory"
  | notDirectory => "Not a directory"
  | isDirectory => "Is a directory"
  | nameTooLong => "File name too long"

/-- A path that could not be read, and why. -/
structure FileError where
  problem : FileProblem
  path : Path
deriving DecidableEq

/-- The wording of an error. -/
def FileError.message (e : FileError) : String :=
  "[Errno " ++ toString e.problem.number ++ "] " ++ e.problem.message ++ ": "
    ++ Text.quoted e.path.text

/-- Why there is no text at a path. Of the three, only the first is a matter of the file tree. -/
inductive ReadFault where
  | refused (error : FileError)
  | notText
  | unusableName
deriving DecidableEq

namespace FileTree

/-! ## 3. Locations -/

/-- What stands at a location. -/
def find? (t : FileTree) (l : Location) : Option FileNode :=
  match t.entries.find? fun e => e.1 = l with
  | some e => some e.2
  | none =>
    if l.isEmpty || t.entries.any (fun e => l.isPrefixOf e.1) then some .directory else none

/-- Every location that something stands at, the root apart. -/
def locations (t : FileTree) : List Location :=
  (t.entries.flatMap fun e => (List.range e.1.length).map fun k => e.1.take (k + 1)).eraseDups

/-! ## 4. Walking -/

/-- How many bytes a name may have. -/
def maxNameBytes : Nat := 255

/-- How many bytes the text of a path has to stay below. -/
def pathBytesLimit : Nat := 4096

/-- The location that some names lead to from a location. -/
def walk (t : FileTree) : Location → List String → Except FileProblem Location
  | here, [] => .ok here
  | here, name :: rest =>
    match t.find? here with
    | some .directory =>
      if name = ".." then t.walk here.dropLast rest
      else if name.utf8ByteSize > maxNameBytes then .error .nameTooLong
      else if (t.find? (here ++ [name])).isNone then .error .absent
      else t.walk (here ++ [name]) rest
    | _ => .error .notDirectory

/-- Where the names of a path start. -/
def start (t : FileTree) (p : Path) : Location := if p.root = .current then t.current else []

/-- The location that a path leads to. -/
def locate (t : FileTree) (p : Path) : Except FileProblem Location :=
  if p.text.utf8ByteSize ≥ pathBytesLimit then .error .nameTooLong
  else t.walk (t.start p) p.names

/-- What a path leads to. A path that leads nowhere is no problem; one that cannot be followed
is. -/
def look (t : FileTree) (p : Path) : Except FileProblem (Option FileNode) :=
  match t.locate p with
  | .ok l => .ok (t.find? l)
  | .error .nameTooLong => .error .nameTooLong
  | .error _ => .ok none

/-- Drops each name in front of double dots, together with them. -/
def settle (names : List String) : Location :=
  names.foldl (fun l name => if name = ".." then l.dropLast else l ++ [name]) []

/-- The path from the root that a path stands for, whether or not something stands there. -/
def resolve (t : FileTree) (p : Path) : Path := ⟨.slash, settle (t.start p ++ p.names)⟩

end FileTree

/-! ## 5. Reading -/

/-- A text with every line end written as a line feed. -/
def unifyLineEnds : List Char → List Char
  | [] => []
  | '\r' :: '\n' :: r => '\n' :: unifyLineEnds r
  | c :: r => (if c = '\r' then '\n' else c) :: unifyLineEnds r

/-- The text that some bytes hold, unless they are not UTF-8. -/
def decodeText? (content : ByteArray) : Option String :=
  (String.fromUTF8? content).map fun s => String.ofList (unifyLineEnds s.toList)

namespace FileTree

/-- The text of the file at a path. -/
def readText (t : FileTree) (p : Path) : Except ReadFault String :=
  if p.isUnusable then .error .unusableName
  else
    match t.locate p with
    | .error problem => .error (.refused ⟨problem, p⟩)
    | .ok l =>
      match t.find? l with
      | none => .error (.refused ⟨.absent, p⟩)
      | some .directory => .error (.refused ⟨.isDirectory, p⟩)
      | some (.file content) =>
        match decodeText? content with
        | some text => .ok text
        | none => .error .notText

/-! ## 6. Finding -/

/-- Whether a list of names comes before another one or is the same. -/
def namesLe (a b : List String) : Bool := !decide (b < a)

/-- Everything below a location whose own name has an ending, as the names from there down, in
order. -/
def namesBelow (t : FileTree) (ending : String) (l : Location) : List (List String) :=
  let below := t.locations.filterMap fun k =>
    if l.isPrefixOf k ∧ l.length < k.length then some (k.drop l.length) else none
  (below.filter fun names =>
    ending.toList.isSuffixOf (names.getLast?.getD "").toList).mergeSort namesLe

/-- Everything below a path whose own name has an ending, in order of the names. -/
def findBelow (t : FileTree) (ending : String) (p : Path) : List Path :=
  match t.locate p with
  | .error _ => []
  | .ok l => (t.namesBelow ending l).map fun names => ⟨p.root, p.names ++ names⟩

end FileTree

end ContextAtlas
