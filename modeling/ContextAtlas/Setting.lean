/-
# Settings

A setting is `key = value, value, ...`, where the equals sign is optional and a value is a string,
a number or a word, with an optional sigil `@` in front. A key that is followed by no value is no
setting. The same key may occur several times; every reader below takes the occurrences in order.
-/
import ContextAtlas.Spelled
import ContextAtlas.Token

namespace ContextAtlas.Setting

/-! ## 1. Occurrences -/

/-- A token that can be a value. -/
def value? (t : Token) : Option Token := if t.isValue then some t else none

/-- The tokens behind an optional equals sign. -/
def afterEquals : List Token → List Token
  | [] => []
  | t :: r => if t.is .equals then r else t :: r

/-- The values of every setting of a key, in order. -/
def occurrences (key : String) : List Token → List (List Token)
  | [] => []
  | t :: r =>
    if t.isWord key then
      match (commaRun value? (afterEquals r)).1 with
      | [] => occurrences key r
      | v :: vs => (v :: vs) :: occurrences key r
    else occurrences key r

/-! ## 2. Readers -/

/-- The first string among the values of a key. -/
def string? (key : String) (ts : List Token) : Option String :=
  (occurrences key ts).flatten.findSome? Token.string?

/-- The first value of a key, whatever its kind. -/
def first? (key : String) (ts : List Token) : Option String :=
  (occurrences key ts).flatten.head?.map Token.value

/-- All values of a key. -/
def values (key : String) (ts : List Token) : List String :=
  (occurrences key ts).flatten.map Token.value

/-- All strings among the values of a key. -/
def strings (key : String) (ts : List Token) : List String :=
  (occurrences key ts).flatten.filterMap Token.string?

/-- The first value of a key that names a member of a closed vocabulary. -/
def member? (α : Type) [Spelled α] (key : String) (ts : List Token) : Option α :=
  (occurrences key ts).flatten.findSome? fun t => Spelled.read? t.value

end ContextAtlas.Setting
