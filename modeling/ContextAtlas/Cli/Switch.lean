/-
# Options and operands

A command line has options, which start with a dash, and operands. Which options there are and
what its operands mean is its grammar; the role of each word follows from the grammar alone.

* `Switch`: an option, one that stands for itself or one to which a value belongs.
* `Grammar`: the options of a command line and what its operands are.
* `ArgumentFault`: what can be wrong with a command line, with the wording in
  `ArgumentFault.message`.
* `Grammar.wordsOf`: the role of every word. A spelling may be cut short as long as only one
  option goes on from it, and a value may be attached to it.
-/
import ContextAtlas.Text.Numeral
import ContextAtlas.Text.Printable

namespace ContextAtlas.Cli

/-! ## 1. Grammars -/

/-- An option that stands for itself. -/
inductive Flag where
  | help
  | strict
deriving DecidableEq

/-- An option to which a value belongs. -/
inductive Valued where
  | logLevel
  | indent
deriving DecidableEq

/-- An option. -/
inductive Switch where
  | flag (f : Flag)
  | valued (v : Valued)
deriving DecidableEq

namespace Switch

/-- The spellings of an option. -/
def spellings : Switch → List String
  | flag .help => ["-h", "--help"]
  | flag .strict => ["--strict"]
  | valued .logLevel => ["--log-level"]
  | valued .indent => ["--indent"]

/-- How messages call an option. -/
def title (s : Switch) : String := String.intercalate "/" s.spellings

end Switch

/-- How messages call an option that stands for itself. -/
def Flag.title (f : Flag) : String := (Switch.flag f).title

/-- How messages call an option to which a value belongs. -/
def Valued.title (v : Valued) : String := (Switch.valued v).title

/-- What the operands of a command line are: at most one, exactly one that messages call by a
title, or a command with words of its own. -/
inductive Operands where
  | atMostOne
  | one (title : String)
  | command
deriving DecidableEq

/-- The options of a command line and its operands. -/
structure Grammar where
  switches : List Switch
  operands : Operands
deriving DecidableEq

namespace Grammar

/-- Every spelling of an option, with the option. -/
def spellings (g : Grammar) : List (String × Switch) :=
  g.switches.flatMap fun s => s.spellings.map fun spelling => (spelling, s)

/-- The option that is spelled so. -/
def switch? (g : Grammar) (spelling : String) : Option Switch :=
  (g.spellings.find? fun e => e.1 = spelling).map (·.2)

end Grammar

/-! ## 2. Faults -/

/-- What is wrong with a command line. -/
inductive ArgumentFault where
  | ambiguous (word : String) (spellings : List String)
  | noValue (title : String)
  | idleValue (title value : String)
  | notInteger (title value : String)
  | notChoice (title value : String) (choices : List String)
  | missing (title : String)
  | unrecognized (words : List String)
deriving DecidableEq

/-- The wording of a fault. -/
def ArgumentFault.message : ArgumentFault → String
  | ambiguous word spellings =>
    "ambiguous option: " ++ word ++ " could match " ++ String.intercalate ", " spellings
  | noValue title => "argument " ++ title ++ ": expected one argument"
  | idleValue title value =>
    "argument " ++ title ++ ": ignored explicit argument " ++ Text.quoted value
  | notInteger title value => "argument " ++ title ++ ": invalid int value: " ++ Text.quoted value
  | notChoice title value choices =>
    "argument " ++ title ++ ": invalid choice: " ++ Text.quoted value ++ " (choose from "
      ++ String.intercalate ", " (choices.map Text.quoted) ++ ")"
  | missing title => "the following arguments are required: " ++ title
  | unrecognized words => "unrecognized arguments: " ++ String.intercalate " " words

/-! ## 3. Roles -/

/-- The word behind which all is operands. -/
def separator : String := "--"

/-- What a word of a command line is: the separator, an operand, an option with the spelling in
full and what is attached to it in the same word, or an option that is not known. -/
inductive Role where
  | separator
  | operand
  | option (switch : Switch) (spelling : String) (attached : Option (List Char))
  | unknown
deriving DecidableEq

/-- Whether a role is that of an option, known or not. -/
def Role.isOption : Role → Bool
  | option .. => true
  | unknown => true
  | _ => false

/-- A word and its role. -/
structure Word where
  text : String
  role : Role
deriving DecidableEq

/-- A text cut at its first equals sign. -/
def cutAtEquals? (text : List Char) : Option (List Char × List Char) :=
  match text.dropWhile (· != '=') with
  | [] => none
  | _ :: value => some (text.takeWhile (· != '='), value)

/-- Whether all of a text is decimal digits. -/
def allDigits (text : List Char) : Bool := text.all fun c => (Text.decimalValue? c).isSome

/-- Whether a text is a number below zero: a dash and digits, with a point among or before them; a
line end behind them is allowed. -/
def isNegativeNumber (text : List Char) : Bool :=
  let body := if text.getLast? = some '\n' then text.dropLast else text
  match body with
  | '-' :: number =>
    let whole := number.takeWhile fun c => (Text.decimalValue? c).isSome
    match number.drop whole.length with
    | [] => !whole.isEmpty
    | '.' :: fraction => !fraction.isEmpty && allDigits fraction
    | _ => false
  | _ => false

namespace Grammar

/-- What a word can be short for. Behind two dashes a spelling may be cut short and a value may
follow an equals sign; behind one dash stands a letter, and the rest of the word is attached. -/
def readingsOf (g : Grammar) (text : List Char) : List (String × Role) :=
  match text with
  | '-' :: '-' :: _ =>
    let (start, attached) : List Char × Option (List Char) :=
      match cutAtEquals? text with
      | some (start, value) => (start, some value)
      | none => (text, none)
    g.spellings.filterMap fun (spelling, s) =>
      if start.isPrefixOf spelling.toList then some (spelling, .option s spelling attached)
      else none
  | _ =>
    g.spellings.filterMap fun (spelling, s) =>
      if spelling.toList = text.take 2 then
        some (spelling, .option s spelling (some (text.drop 2)))
      else if text.isPrefixOf spelling.toList then some (spelling, .option s spelling none)
      else none

/-- The option that a word writes with a full spelling, alone or in front of an equals sign. -/
def exactRole? (g : Grammar) (text : List Char) : Option Role :=
  match g.switch? (String.ofList text) with
  | some s => some (.option s (String.ofList text) none)
  | none => do
    let (start, value) ← cutAtEquals? text
    let s ← g.switch? (String.ofList start)
    some (.option s (String.ofList start) (some value))

/-- The role of a word that is not the separator. -/
def roleOf (g : Grammar) (text : List Char) : Except ArgumentFault Role :=
  match text with
  | '-' :: _ :: _ =>
    match g.exactRole? text with
    | some role => .ok role
    | none =>
      match g.readingsOf text with
      | [] =>
        if isNegativeNumber text || text.contains ' ' then .ok .operand else .ok .unknown
      | [(_, role)] => .ok role
      | readings => .error (.ambiguous (String.ofList text) (readings.map (·.1)))
  | _ => .ok .operand

/-- The words of a command line with their roles. Behind the separator all are operands. -/
def wordsOf (g : Grammar) : List String → Except ArgumentFault (List Word)
  | [] => .ok []
  | text :: rest =>
    if text = separator then .ok (⟨text, .separator⟩ :: rest.map fun t => ⟨t, .operand⟩)
    else do
      let role ← g.roleOf text.toList
      let words ← g.wordsOf rest
      .ok (⟨text, role⟩ :: words)

end Grammar

end ContextAtlas.Cli
