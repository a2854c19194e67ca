/-
# Log levels

How much is told while documents are read: what is below the level is not told.
-/
import ContextAtlas.Spelled

namespace ContextAtlas

/-- How grave a line of the log is. -/
inductive LogLevel where
  | debug
  | info
  | warning
  | error
  | critical
deriving DecidableEq

instance : Spelled LogLevel where
  all := [.debug, .info, .warning, .error, .critical]
  spell
    | .debug => "DEBUG"
    | .info => "INFO"
    | .warning => "WARNING"
    | .error => "ERROR"
    | .critical => "CRITICAL"
  find_spell := by intro a; cases a <;> rfl

namespace LogLevel

/-- The place of a level among the others, from the least grave on. -/
def rank : LogLevel → Nat
  | debug => 0
  | info => 1
  | warning => 2
  | error => 3
  | critical => 4

/-- Whether a line of a level is told under a threshold. -/
def isTold (level threshold : LogLevel) : Bool := threshold.rank ≤ level.rank

/-- The spellings of all levels. -/
def names : List String := (Spelled.all : List LogLevel).map Spelled.spell

/-- The capital of a letter, where it is a letter of ASCII: besides the small letters of ASCII,
the dotless i and the long s have such a capital. -/
def capital (c : Char) : Char :=
  if c = '\u0131' then 'I' else if c = '\u017f' then 'S' else c.toUpper

/-- The level that a word names, in capital or small letters. -/
def ofWord? (word : String) : Option LogLevel :=
  Spelled.read? (String.ofList (word.toList.map capital))

end LogLevel

end ContextAtlas
