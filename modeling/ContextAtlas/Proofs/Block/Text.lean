/-
# The text of a block

A block can be read from its tokens or, again, from its text.  Both ways find the same: the text of
a block, cut out of the document by its offsets, holds that block and nothing else, and the text
between its braces holds the blocks that a scan of its body finds.

* `Stretch`: a part of a document that has, on its own, the tokens it has in the document;
* `Stretch.matchedValues_eq`, `Stretch.text_moved`: so the same blocks are found in it, with the
  same texts;
* `Block.FoundIn.stretch_text`, `Block.FoundIn.stretch_innerText`: both texts of a block are such
  parts.
-/
import ContextAtlas.Proofs.Block.Scan
import ContextAtlas.Proofs.Layout.Report
import ContextAtlas.Proofs.Token.Cut

namespace ContextAtlas

/-! ## 1. Parts of a document -/

theorem Position.keepsLines_inside (origin : Position) : KeepsLines origin.inside := by
  intro p q
  simp only [inside]
  omega

/-- A part of a document that starts at `origin` and has the tokens `ts`, there and on its own. -/
structure Stretch (document : List Char) (origin : Position) (part : List Char)
    (ts : List Token) : Prop where
  one_le_line : 1 ≤ origin.line
  one_le_column : 1 ≤ origin.column
  stands : ∃ front back, document = front ++ (part ++ back) ∧ front.length = origin.offset
  tokens_eq : lexFrom origin part = ts

namespace Stretch

variable {document part : List Char} {origin : Position} {ts : List Token}

theorem moved_lex (h : Stretch document origin part ts) :
    (lex part).map (Token.moved origin.inside) = ts := by
  rw [← lexFrom_eq_moved h.one_le_line h.one_le_column, h.tokens_eq]

/-- **The blocks of the part, read on its own, are those of its tokens at other places.** -/
theorem matchedValues_eq (h : Stretch document origin part ts) (keyword : String)
    (nameOptional : Bool) :
    matchedValues (scanBlocks keyword nameOptional ts)
      = (blocksOf keyword nameOptional part).map (Block.moved origin.inside) := by
  rw [← h.moved_lex, blocksOf]
  exact matchedValues_of_unplaced (scanBlocks_moved keyword nameOptional (lex part))

/-- **A block of the part has the same text in the part and in the document.** -/
theorem text_moved (h : Stretch document origin part ts) {keyword : String} {nameOptional : Bool}
    {c : Block} (hc : c ∈ blocksOf keyword nameOptional part) :
    (c.moved origin.inside).text document = c.text part := by
  obtain ⟨-, ⟨site⟩⟩ := exists_site_of_mem_scanFrom hc
  obtain ⟨front, back, rfl, hfront⟩ := h.stands
  have hstart : c.start.offset < part.length := by
    rw [site.start_eq]
    simpa [Position.start] using offset_lt_of_mem_lexFrom site.word_mem
  have hcloser : c.closer.offset < part.length := by
    rw [site.closer_eq]
    simpa [Position.start] using offset_lt_of_mem_lexFrom site.closing_mem
  have hlength : origin.offset + c.closer.offset + 1 - (origin.offset + c.start.offset)
      = c.closer.offset + 1 - c.start.offset := by omega
  have hwithin : c.closer.offset + 1 - c.start.offset ≤ (part.drop c.start.offset).length := by
    rw [List.length_drop]
    omega
  simp only [Block.text, Block.moved, Position.inside]
  rw [hlength, ← hfront, List.drop_length_add_append, List.drop_append_of_le_length hstart.le,
    List.take_append_of_le_length hwithin]

end Stretch

/-- The part of the document strictly between a block's braces. -/
def Block.innerText (b : Block) (document : List Char) : List Char :=
  (document.drop (b.opener.offset + 1)).take (b.closer.offset - (b.opener.offset + 1))

/-! ## 2. The texts of a block -/

section

variable {document : List Char} {nameOptional : Bool} {b : Block}

theorem Block.Site.stretch_text (s : b.Site nameOptional (lex document)) :
    Stretch document b.start (b.text document)
      (s.word :: (s.clauses ++ s.opening :: (b.body ++ [s.closing]))) := by
  obtain ⟨front, c, r, hdocument, hfront, -, hread⟩ := exists_split_of_lexFrom s.tokens_eq
  have hrun : lexFrom s.word.position (c :: r)
      = (s.word :: (s.clauses ++ s.opening :: b.body)) ++ s.closing :: s.behind := by
    rw [hread]
    simp
  obtain ⟨part, back, hpart, hcloser, -, htokens⟩ := exists_cut_of_lexFrom hrun s.closes
  have hstart : front.length = b.start.offset := by
    rw [s.start_eq, ← hfront, Position.offset_foldl_past, Position.start, Nat.zero_add]
  have hlength : (part ++ ['}']).length = b.closer.offset + 1 - b.start.offset := by
    rw [s.closer_eq, ← hcloser, Position.offset_foldl_past, s.start_eq, List.length_append,
      List.length_singleton]
    omega
  have hsplit : document = front ++ ((part ++ ['}']) ++ back) := by rw [hdocument, hpart]; simp
  have htext : b.text document = part ++ ['}'] := by
    rw [Block.text, hsplit, List.drop_left' hstart, List.take_left' hlength]
  rw [htext]
  refine ⟨?_, ?_, ⟨front, back, hsplit, hstart⟩, ?_⟩
  · rw [s.start_eq]
    exact one_le_line_of_mem_lex s.word_mem
  · rw [s.start_eq]
    exact one_le_column_of_mem_lexFrom .start document (Nat.le_refl 1) _ s.word_mem
  · rw [s.start_eq, htokens]
    simp

theorem Block.Site.stretch_innerText (s : b.Site nameOptional (lex document)) :
    Stretch document (b.opener.right 1) (b.innerText document) b.body := by
  have hopening : lexFrom .start document = (s.before ++ s.word :: s.clauses)
      ++ s.opening :: (b.body ++ s.closing :: s.behind) :=
    s.tokens_eq.trans (by simp)
  obtain ⟨front, r, hdocument, hfront, hread⟩ := exists_split_behind_brace hopening s.opens
  obtain ⟨part, back, hpart, hcloser, htokens, -⟩ := exists_cut_of_lexFrom hread s.closes
  have hstart : front.length = b.opener.offset + 1 := by
    have hoffset := congrArg Position.offset hfront
    rw [Position.offset_foldl_past] at hoffset
    simpa [Position.start, Position.right, s.opener_eq] using hoffset
  have hlength : part.length = b.closer.offset - (b.opener.offset + 1) := by
    rw [s.closer_eq, ← hcloser, Position.offset_foldl_past, s.opener_eq, Position.right]
    simp
  have hsplit : document = front ++ (part ++ '}' :: back) := by rw [hdocument, hpart]
  have htext : b.innerText document = part := by
    rw [Block.innerText, hsplit, List.drop_left' hstart, List.take_left' hlength]
  rw [htext]
  refine ⟨?_, Nat.le_add_left 1 _, ⟨front, '}' :: back, hsplit, hstart⟩, ?_⟩
  · rw [s.opener_eq]
    exact one_le_line_of_mem_lex s.opening_mem
  · rw [s.opener_eq, htokens]

/-- The tokens from a block's keyword to its closing brace hold that block and no other. -/
theorem Block.Site.scanBlocks_eq {ts : List Token} (s : b.Site nameOptional ts) :
    scanBlocks b.keyword nameOptional
        (s.word :: (s.clauses ++ s.opening :: (b.body ++ [s.closing])))
      = [.matched { b with isAbstract := false }] := by
  have hbody : splitBody 0 (b.body ++ [s.closing]) = some (b.body, s.closing, []) :=
    splitBody_eq_some_iff.mpr ⟨rfl, s.closes, s.balanced⟩
  rw [scanBlocks, scanFrom_of_block s.word_is s.header_eq hbody, scanFrom_nil, ← s.start_eq,
    ← s.opener_eq, ← s.closer_eq]
  rfl

/-- **A block can be read again from its text.**  The blocks inside it can be read again from the
text between its braces: offsets are exact, and the text is read there as it was in the
document. -/
theorem blocksOf_text (h : b.FoundIn (lex document) nameOptional) :
    (∃ c, blocksOf b.keyword nameOptional (b.text document) = [c]
        ∧ c.text (b.text document) = b.text document ∧ c.header = b.header
        ∧ c.body.map Token.lexeme = b.body.map Token.lexeme
        ∧ c.lines.map (List.map Token.lexeme) = b.lines.map (List.map Token.lexeme))
      ∧ ∀ keyword inner,
        (blocksOf keyword inner (b.innerText document)).map
            (fun c => (c.text (b.innerText document), c.header, c.isAbstract))
          = (matchedValues (b.scan keyword inner)).map
            fun c => (c.text document, c.header, c.isAbstract) := by
  obtain ⟨s⟩ := h.exists_site
  constructor
  · have hpart := s.stretch_text
    have hblock := hpart.matchedValues_eq b.keyword nameOptional
    rw [s.scanBlocks_eq] at hblock
    obtain ⟨c, hc, hmoved⟩ := List.map_eq_singleton_iff.mp hblock.symm
    have htext := hpart.text_moved (c := c) (by rw [hc]; exact List.mem_singleton_self c)
    have hlines := c.lines_moved (Position.keepsLines_inside b.start)
    rw [hmoved] at htext hlines
    have hheader : (c.moved b.start.inside).header = b.header := by rw [hmoved]
    have hbody : (c.moved b.start.inside).body = b.body := by rw [hmoved]
    refine ⟨c, hc, htext.symm, hheader, ?_, ?_⟩
    · rw [← hbody]
      simp [Block.moved, Function.comp_def]
    · have hsame : ({ b with isAbstract := false } : Block).lines = b.lines := rfl
      rw [← hsame, hlines]
      simp [Function.comp_def]
  · intro keyword inner
    have hpart := s.stretch_innerText
    rw [Block.scan, hpart.matchedValues_eq keyword inner, List.map_map]
    refine List.map_congr_left fun c hc => ?_
    rw [Function.comp_apply, hpart.text_moved hc]
    rfl

end

/-- A document whose blocks share lines, hold a brace in a string, and end a line in an open string
and in half an arrow. -/
def sampleNesting : List Char :=
  ("Aggregate Cart \x7b Entity Item \x7b \x7d abstract Entity Part extends Base \x7b "
    ++ "x = \"\x7d\\\"\" <\n"
    ++ "Entity Leaf \x7b \x7d y = \"open \x7b\n \x7d \x7d").toList

/-- The entity in the middle of that document, read again from its text. -/
theorem blocksOf_text_nested :
    ∃ b : Block, b.FoundIn (lex sampleNesting) true ∧ b.name? = some "Part"
      ∧ (∃ c, blocksOf "Entity" true (b.text sampleNesting) = [c]
        ∧ c.text (b.text sampleNesting) = b.text sampleNesting ∧ c.header = b.header
        ∧ c.body.map Token.lexeme = b.body.map Token.lexeme
        ∧ c.lines.map (List.map Token.lexeme) = b.lines.map (List.map Token.lexeme))
      ∧ (blocksOf "Entity" true (b.innerText sampleNesting)).map
            (fun c => (c.text (b.innerText sampleNesting), c.header, c.isAbstract))
          = [("Entity Leaf \x7b \x7d".toList, ⟨some "Leaf", none⟩, false)] := by
  have hfound : ∃ a ∈ matchedValues (scanBlocks "Aggregate" false (lex sampleNesting)),
      ∃ b ∈ matchedValues (a.scan "Entity" true), b.keyword = "Entity" ∧ b.name? = some "Part"
        ∧ (matchedValues (b.scan "Entity" true)).map
            (fun c => (c.text sampleNesting, c.header, c.isAbstract))
          = [("Entity Leaf \x7b \x7d".toList, ⟨some "Leaf", none⟩, false)] := by
    decide +kernel
  obtain ⟨a, ha, b, hb, hkeyword, hname, hinner⟩ := hfound
  have hin := (Block.FoundIn.scan ha).nested hb
  obtain ⟨htext, hscan⟩ := blocksOf_text hin
  rw [hkeyword] at htext
  exact ⟨b, hin, hname, htext, (hscan "Entity" true).trans hinner⟩

end ContextAtlas
