/-
# Finding blocks

`scanBlocks` finds the outermost blocks of one keyword in a run of tokens. A keyword without a
readable header behind it is no candidate. A candidate whose braces never balance is left out, and
the scan goes on behind its opening brace; a balanced one is taken whole, and the scan goes on
behind its closing brace, so a block of the same keyword inside it is not found again.
-/
import ContextAtlas.Block
import ContextAtlas.Skipped
import ContextAtlas.Token.Lexer

namespace ContextAtlas

/-! ## 1. Headers -/

/-- The words that open a clause of a header, and so name no block. Only `extends` says something
that is kept. -/
def clauseWords : List String := ["extends", "implements", "supports", "refines", "realizes"]

/-- Reads the clauses of a header: each a clause word and a run of names. Gives the first target
of the last `extends` clause, or `parent` without one, and the tokens behind. A clause without a
name spoils the header. -/
def readClauses (parent : Option String) : List Token → Option (Option String × List Token)
  | [] => some (parent, [])
  | t :: r =>
    match t.word? with
    | none => some (parent, t :: r)
    | some w =>
      if w ∈ clauseWords then
        match (commaRun Token.word? r).1 with
        | [] => none
        | target :: _ =>
          readClauses (if w = "extends" then some target else parent)
            (commaRun Token.word? r).2
      else some (parent, t :: r)
termination_by ts => ts.length
decreasing_by
  have := length_commaRun_le Token.word? r
  simp only [List.length_cons]
  omega

/-- Reads the name of a header. Without one the header is spoiled, unless names are optional. -/
def readBlockName (nameOptional : Bool) (ts : List Token) : Option (Option String × List Token) :=
  match ts.head?.bind Token.word? with
  | some w =>
    if w ∉ clauseWords then some (some w, ts.tail)
    else if nameOptional then some (none, ts) else none
  | none => if nameOptional then some (none, ts) else none

/-- Reads the header behind a keyword: the header, its opening brace, and the tokens behind the
brace. -/
def Header.read? (nameOptional : Bool) (ts : List Token) :
    Option (Header × Token × List Token) := do
  let (name, afterName) ← readBlockName nameOptional ts
  let (parent, afterClauses) ← readClauses none afterName
  match afterClauses with
  | t :: r => if t.is .openBrace then some (⟨name, parent⟩, t, r) else none
  | [] => none

theorem length_le_of_readClauses {parent found : Option String} {ts rest : List Token}
    (h : readClauses parent ts = some (found, rest)) : rest.length ≤ ts.length := by
  fun_induction readClauses parent ts with
  | case1 => simp_all
  | case2 => simp_all
  | case3 => simp at h
  | case4 parent t r w _ _ target _ _ ih =>
    have h1 := ih h
    have h2 := length_commaRun_le Token.word? r
    simp only [List.length_cons]
    omega
  | case5 => simp_all

theorem length_le_of_readBlockName {nameOptional : Bool} {name : Option String}
    {ts rest : List Token} (h : readBlockName nameOptional ts = some (name, rest)) :
    rest.length ≤ ts.length := by
  unfold readBlockName at h
  split at h
  · split at h
    · simp only [Option.some.injEq, Prod.mk.injEq] at h
      simp [← h.2]
    · split at h <;> simp_all
  · split at h <;> simp_all

/-- A header takes at least its opening brace. -/
theorem length_lt_of_readHeader {nameOptional : Bool} {ts inner : List Token} {header : Header}
    {opener : Token} (h : Header.read? nameOptional ts = some (header, opener, inner)) :
    inner.length < ts.length := by
  simp only [Header.read?, Option.bind_eq_bind, Option.bind_eq_some_iff] at h
  obtain ⟨⟨name, afterName⟩, hname, ⟨parent, afterClauses⟩, hclauses, h⟩ := h
  have h1 := length_le_of_readBlockName hname
  have h2 := length_le_of_readClauses hclauses
  split at h
  · split at h
    · simp only [Option.some.injEq, Prod.mk.injEq] at h
      obtain ⟨-, -, rfl⟩ := h
      simp_all
      omega
    · simp at h
  · simp at h

/-! ## 2. The scan -/

/-- Finds the outermost blocks of a keyword in a run of tokens; `before` is the token in front of
the run. One outcome for each candidate, in order. -/
def scanFrom (keyword : String) (nameOptional : Bool) (before : Option Token) :
    List Token → List (Outcome Block)
  | [] => []
  | t :: r =>
    if t.isWord keyword then
      match _hheader : Header.read? nameOptional r with
      | none => scanFrom keyword nameOptional (some t) r
      | some (header, opener, inner) =>
        match _hbody : splitBody 0 inner with
        | none =>
          .skipped (.ofTokens .unterminatedBlock (t :: r.take (r.length - inner.length)))
            :: scanFrom keyword nameOptional (some opener) inner
        | some (body, closer, rest) =>
          .matched
            { keyword := keyword
              header := header
              isAbstract := before.any (·.isWord "abstract")
              start := t.position
              opener := opener.position
              closer := closer.position
              body := body }
            :: scanFrom keyword nameOptional (some closer) rest
    else scanFrom keyword nameOptional (some t) r
termination_by ts => ts.length
decreasing_by
  · simp only [List.length_cons]
    omega
  · have := length_lt_of_readHeader _hheader
    simp only [List.length_cons]
    omega
  · have h1 := length_lt_of_readHeader _hheader
    have h2 := length_lt_of_splitBody _hbody
    simp only [List.length_cons]
    omega
  · simp only [List.length_cons]
    omega

section

variable {keyword : String} {nameOptional : Bool} {before : Option Token} {t opener closer : Token}
  {r inner body rest : List Token} {header : Header}

@[simp] theorem scanFrom_nil : scanFrom keyword nameOptional before [] = [] := by
  rw [scanFrom]

theorem scanFrom_of_not_keyword (ht : t.isWord keyword = false) :
    scanFrom keyword nameOptional before (t :: r) = scanFrom keyword nameOptional (some t) r := by
  rw [scanFrom, ht, if_neg Bool.false_ne_true]

theorem scanFrom_of_no_header (ht : t.isWord keyword = true)
    (hh : Header.read? nameOptional r = none) :
    scanFrom keyword nameOptional before (t :: r) = scanFrom keyword nameOptional (some t) r := by
  rw [scanFrom, if_pos ht]
  split
  · rfl
  · rename_i h
    exact absurd (hh.symm.trans h) (by simp)

theorem scanFrom_of_open (ht : t.isWord keyword = true)
    (hh : Header.read? nameOptional r = some (header, opener, inner))
    (hb : splitBody 0 inner = none) :
    scanFrom keyword nameOptional before (t :: r)
      = .skipped (.ofTokens .unterminatedBlock (t :: r.take (r.length - inner.length)))
        :: scanFrom keyword nameOptional (some opener) inner := by
  rw [scanFrom, if_pos ht]
  split
  · rename_i h
    exact absurd (hh.symm.trans h) (by simp)
  · rename_i h
    obtain ⟨rfl, rfl, rfl⟩ := by simpa using hh.symm.trans h
    split
    · rfl
    · rename_i h'
      exact absurd (hb.symm.trans h') (by simp)

theorem scanFrom_of_block (ht : t.isWord keyword = true)
    (hh : Header.read? nameOptional r = some (header, opener, inner))
    (hb : splitBody 0 inner = some (body, closer, rest)) :
    scanFrom keyword nameOptional before (t :: r)
      = .matched
          { keyword := keyword
            header := header
            isAbstract := before.any (·.isWord "abstract")
            start := t.position
            opener := opener.position
            closer := closer.position
            body := body }
        :: scanFrom keyword nameOptional (some closer) rest := by
  rw [scanFrom, if_pos ht]
  split
  · rename_i h
    exact absurd (hh.symm.trans h) (by simp)
  · rename_i h
    obtain ⟨rfl, rfl, rfl⟩ := by simpa using hh.symm.trans h
    split
    · rename_i h'
      exact absurd (hb.symm.trans h') (by simp)
    · rename_i h'
      obtain ⟨rfl, rfl, rfl⟩ := by simpa using hb.symm.trans h'
      rfl

end

/-- The outcomes for the blocks of a keyword in a whole run of tokens. -/
def scanBlocks (keyword : String) (nameOptional : Bool) (ts : List Token) :
    List (Outcome Block) :=
  scanFrom keyword nameOptional none ts

/-- The outcomes for the blocks of a keyword inside a block. -/
def Block.scan (b : Block) (keyword : String) (nameOptional : Bool) : List (Outcome Block) :=
  scanBlocks keyword nameOptional b.body

/-- The blocks of a keyword in a text without comments; what was left out is not told. -/
def blocksOf (keyword : String) (nameOptional : Bool) (text : List Char) : List Block :=
  matchedValues (scanBlocks keyword nameOptional (lex text))

end ContextAtlas
