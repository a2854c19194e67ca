/-
# Blocks

A block is `Keyword Name { ... }`: a keyword, a header, and the tokens between two matching
braces. This module holds the block itself and what its body says on its own lines.

* `Block`: one block, with the positions that bound it.
* `splitBody`: the tokens up to the brace that closes a group, and the tokens behind it.
* `Block.lines`: the body's own lines, without nested groups and what leads up to them on a line.
-/
import ContextAtlas.Token

namespace ContextAtlas

/-! ## 1. Headers and blocks -/

/-- What stands between a keyword and the opening brace: an optional name, and the target of an
`extends` clause. -/
structure Header where
  name : Option String
  parent : Option String
deriving DecidableEq

/-- One block of a document. `opener` and `closer` are the places of its braces and `start` is
the place of its keyword; `body` holds the tokens strictly between the braces. -/
structure Block where
  keyword : String
  header : Header
  isAbstract : Bool
  start : Position
  opener : Position
  closer : Position
  body : List Token
deriving DecidableEq

namespace Block

/-- The name in the header. -/
def name? (b : Block) : Option String := b.header.name

/-- The name in the header, or the empty name of an anonymous block. -/
def name (b : Block) : String := b.header.name.getD ""

/-- The line of the keyword. -/
def line (b : Block) : Nat := b.start.line

/-- The part of the document that the block takes, from its keyword to its closing brace. -/
def text (b : Block) (document : List Char) : List Char :=
  (document.drop b.start.offset).take (b.closer.offset + 1 - b.start.offset)

end Block

/-! ## 2. Groups -/

/-- Splits the tokens behind an opening brace at the brace that closes the group, while `depth`
further groups are open: the tokens before it, the closing brace, and the tokens behind it. There
is no split when the group never closes. -/
def splitBody : Nat → List Token → Option (List Token × Token × List Token)
  | _, [] => none
  | depth, t :: r =>
    if t.is .openBrace then
      (splitBody (depth + 1) r).map fun (body, closer, rest) => (t :: body, closer, rest)
    else if t.is .closeBrace then
      match depth with
      | 0 => some ([], t, r)
      | d + 1 => (splitBody d r).map fun (body, closer, rest) => (t :: body, closer, rest)
    else (splitBody depth r).map fun (body, closer, rest) => (t :: body, closer, rest)

/-- A split loses nothing: the body, the closing brace and the rest make up the tokens. -/
theorem eq_of_splitBody {depth : Nat} {ts body rest : List Token} {closer : Token}
    (h : splitBody depth ts = some (body, closer, rest)) : ts = body ++ closer :: rest := by
  fun_induction splitBody depth ts generalizing body with
  | case1 => simp at h
  | case2 depth t r _ ih =>
    obtain ⟨⟨b, c, s⟩, hs, he⟩ := Option.map_eq_some_iff.mp h
    simp only [Prod.mk.injEq] at he
    obtain ⟨rfl, rfl, rfl⟩ := he
    simp [ih hs]
  | case3 t r =>
    simp only [Option.some.injEq, Prod.mk.injEq] at h
    obtain ⟨rfl, rfl, rfl⟩ := h
    rfl
  | case4 t r _ _ d ih =>
    obtain ⟨⟨b, c, s⟩, hs, he⟩ := Option.map_eq_some_iff.mp h
    simp only [Prod.mk.injEq] at he
    obtain ⟨rfl, rfl, rfl⟩ := he
    simp [ih hs]
  | case5 depth t r _ _ ih =>
    obtain ⟨⟨b, c, s⟩, hs, he⟩ := Option.map_eq_some_iff.mp h
    simp only [Prod.mk.injEq] at he
    obtain ⟨rfl, rfl, rfl⟩ := he
    simp [ih hs]

theorem length_lt_of_splitBody {depth : Nat} {ts body rest : List Token} {closer : Token}
    (h : splitBody depth ts = some (body, closer, rest)) : rest.length < ts.length := by
  rw [eq_of_splitBody h]
  simp
  omega

/-! ## 3. Own lines -/

/-- Whether a run of tokens opens a group of its own level: an opening brace stands in it while
no other group is open. -/
def opensGroup : Nat → List Token → Bool
  | _, [] => false
  | depth, t :: r =>
    if t.is .openBrace then depth = 0 || opensGroup (depth + 1) r
    else if t.is .closeBrace then opensGroup (depth - 1) r
    else opensGroup depth r

/-- The tokens of a body that are its own, while `depth` nested groups are open: those outside
every nested group, not on line `braceLine`, and with no nested group opening behind them on
their line. -/
def ownTokensFrom (braceLine : Nat) : Nat → List Token → List Token
  | _, [] => []
  | depth, t :: r =>
    if t.is .openBrace then ownTokensFrom braceLine (depth + 1) r
    else if t.is .closeBrace then ownTokensFrom braceLine (depth - 1) r
    else if depth = 0 && t.line != braceLine
        && !opensGroup 0 (r.takeWhile fun u => u.line == t.line) then
      t :: ownTokensFrom braceLine depth r
    else ownTokensFrom braceLine depth r

/-- Groups a run of tokens by line. -/
def groupLines (run : List Token) : List (List Token) :=
  run.splitBy fun t u => t.line == u.line

namespace Block

/-- The body's own tokens: nested groups are left out together with the tokens in front of them on
the line of their opening brace, and so are the tokens on the line of the block's opening brace.
What follows a nested group on a line is kept, unless another group opens behind it there. -/
def ownTokens (b : Block) : List Token := ownTokensFrom b.opener.line 0 b.body

/-- The body's own tokens, line by line. -/
def lines (b : Block) : List (List Token) := groupLines b.ownTokens

end Block

end ContextAtlas
