/-
# Paths

A path is a root and the names below it. Reading a path drops what says nothing: empty names and
single dots. Double dots stay, because only the file tree knows where they lead.

* `Path.ofText`, `Path.text`: the path that a text writes, and its text.
* `Path.join`: a path below another one; a path with a root of its own stands for itself.
* `Path.relativeTo?`: what is left of a path below another one, name by name.
-/

namespace ContextAtlas

/-! ## 1. Roots and names -/

/-- Where a path starts: at the current directory, or at the root. Two slashes in front are kept
apart from one; three and more count as one. -/
inductive PathRoot where
  | current
  | slash
  | twoSlashes
deriving DecidableEq

/-- How a root is written. -/
def PathRoot.text : PathRoot → String
  | current => ""
  | slash => "/"
  | twoSlashes => "//"

/-- The root that a text starts with. -/
def PathRoot.ofText : List Char → PathRoot
  | '/' :: '/' :: '/' :: _ => slash
  | '/' :: '/' :: _ => twoSlashes
  | '/' :: _ => slash
  | _ => current

/-- A path: a root and the names below it. -/
structure Path where
  root : PathRoot
  names : List String
deriving DecidableEq

namespace Path

/-- The names that a text writes: the pieces between its slashes, without empty ones and single
dots. -/
def namesOf (text : List Char) : List String :=
  let pieces := (text.splitOnP (· == '/')).filter fun piece => !(piece.isEmpty || piece = ['.'])
  pieces.map String.ofList

/-- The path that a text writes. -/
def ofText (text : String) : Path := ⟨PathRoot.ofText text.toList, namesOf text.toList⟩

/-- The text of a path. The current directory is a single dot. -/
def text (p : Path) : String :=
  if p.root = .current ∧ p.names = [] then "."
  else p.root.text ++ String.intercalate "/" p.names

/-! ## 2. Joining and comparing -/

/-- A path seen from another one. -/
def join (p q : Path) : Path :=
  if q.root = .current then ⟨p.root, p.names ++ q.names⟩ else q

/-- The path of a name below a path. -/
def child (p : Path) (name : String) : Path := ⟨p.root, p.names ++ [name]⟩

/-- What is left of a path below another one, if its names go on from the other's. -/
def relativeTo? (p base : Path) : Option Path :=
  if p.root = base.root ∧ base.names.isPrefixOf p.names then
    some ⟨.current, p.names.drop base.names.length⟩
  else none

/-- Whether a path holds a character that no file name can hold. -/
def isUnusable (p : Path) : Bool := p.names.any fun n => n.toList.contains '\x00'

end Path

end ContextAtlas
