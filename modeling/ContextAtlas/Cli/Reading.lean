/-
# Reading a command line

The words of a command line are read from left to right. An option takes the value that belongs to
it; the first operands are taken as the grammar says, and operands beyond them are left over. A
fault ends the reading, but the steps in front of it stand: what they say comes first.

* `Step`: an option with its value, or the operands.
* `Reading`: the steps in order, and the words left over or the fault.
* `Grammar.read`: the reading of a command line.
-/
import ContextAtlas.Cli.Switch

namespace ContextAtlas.Cli

/-! ## 1. Readings -/

/-- A step of reading a command line. The operands of a command are all the words from its name
on. -/
inductive Step where
  | flag (f : Flag)
  | value (v : Valued) (text : String)
  | operands (texts : List String)
deriving DecidableEq

/-- The steps of a reading, and what it ends with: the words left over, or a fault. -/
structure Reading where
  steps : List Step
  ending : Except ArgumentFault (List String)

namespace Reading

/-- A reading that ends with a fault at once. -/
def fault (f : ArgumentFault) : Reading := ⟨[], .error f⟩

/-- A reading that leaves some words over. -/
def leftOver (words : List Word) : Reading := ⟨[], .ok (words.map Word.text)⟩

/-- Some steps in front of a reading. -/
def after (steps : List Step) (r : Reading) : Reading := ⟨steps ++ r.steps, r.ending⟩

/-- Some words left over in front of a reading. -/
def passing (texts : List String) (r : Reading) : Reading := ⟨r.steps, r.ending.map (texts ++ ·)⟩

end Reading

namespace Grammar

/-! ## 2. Options -/

/-- What a word with an option writes: the steps, or steps in front of an option whose value is the
next word. -/
inductive Unpacked where
  | closed (steps : List Step)
  | owing (steps : List Step) (v : Valued)
deriving DecidableEq

/-- A step in front of what a word writes. -/
def Unpacked.after (step : Step) : Unpacked → Unpacked
  | closed steps => closed (step :: steps)
  | owing steps v => owing (step :: steps) v

/-- What an option of a single dash writes that stands for itself and has a text attached. The
text is the letters of further options, the last of which may have a value attached; a letter that
is no option makes the whole text from there on idle. -/
def unpack (g : Grammar) : Flag → List Char → Except ArgumentFault Unpacked
  | f, [] => .error (.idleValue f.title "")
  | f, c :: rest =>
    match g.switch? (String.ofList ['-', c]), rest with
    | none, _ => .error (.idleValue f.title (String.ofList (c :: rest)))
    | some (.flag next), [] => .ok (.closed [.flag f, .flag next])
    | some (.flag next), more => (g.unpack next more).map (.after (.flag f))
    | some (.valued v), [] => .ok (.owing [.flag f] v)
    | some (.valued v), value => .ok (.closed [.flag f, .value v (String.ofList value)])

/-- What a word with an option writes. -/
def unpackWord (g : Grammar) (s : Switch) (spelling : String) (attached : Option (List Char)) :
    Except ArgumentFault Unpacked :=
  match s, attached with
  | .flag f, none => .ok (.closed [.flag f])
  | .valued v, none => .ok (.owing [] v)
  | .valued v, some text => .ok (.closed [.value v (String.ofList text)])
  | .flag f, some text =>
    if "--".toList.isPrefixOf spelling.toList then
      .error (.idleValue f.title (String.ofList text))
    else g.unpack f text

/-! ## 3. Operands -/

/-- Takes the operands from words among which there are no options. -/
def readOperands (g : Grammar) (words : List Word) : Reading :=
  let isSeparator (w : Word) : Bool := w.role = .separator
  match g.operands, words.dropWhile isSeparator with
  | .atMostOne, [] => .after [.operands []] (.leftOver [])
  | .atMostOne, w :: rest => .after [.operands [w.text]] (.leftOver (rest.dropWhile isSeparator))
  | .one title, [] => .fault (.missing title)
  | .one _, w :: rest => .after [.operands [w.text]] (.leftOver (rest.dropWhile isSeparator))
  | .command, [] => .leftOver words
  | .command, _ => .after [.operands (words.map Word.text)] (.leftOver [])

/-! ## 4. Command lines -/

/-- Reads words with their roles. The flag says whether the operands have not been taken yet; the
steps and the option behind it are those that wait for a value. -/
def readWords (g : Grammar) : Bool → Option (List Step × Valued) → List Word → Reading
  | _, some (_, v), [] => .fault (.noValue v.title)
  | waiting, some (steps, v), word :: rest =>
    if word.role = .operand then
      .after (steps ++ [.value v word.text]) (g.readWords waiting none rest)
    else .fault (.noValue v.title)
  | waiting, none, [] => if waiting then g.readOperands [] else .leftOver []
  | waiting, none, word :: rest =>
    if !(word :: rest).any (·.role.isOption) then
      if waiting then g.readOperands (word :: rest) else .leftOver (word :: rest)
    else
      match word.role with
      | .unknown => .passing [word.text] (g.readWords waiting none rest)
      | .option s spelling attached =>
        match g.unpackWord s spelling attached with
        | .error f => .fault f
        | .ok (.closed steps) => .after steps (g.readWords waiting none rest)
        | .ok (.owing steps v) => g.readWords waiting (some (steps, v)) rest
      | _ =>
        match waiting, g.operands with
        | false, _ => .passing [word.text] (g.readWords false none rest)
        | true, .command => .after [.operands ((word :: rest).map Word.text)] (.leftOver [])
        | true, _ => .after [.operands [word.text]] (g.readWords false none rest)

/-- Reads a command line. -/
def read (g : Grammar) (texts : List String) : Reading :=
  match g.wordsOf texts with
  | .ok words => g.readWords true none words
  | .error f => .fault f

end Grammar

end ContextAtlas.Cli
