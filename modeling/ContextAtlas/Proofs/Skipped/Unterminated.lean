/-
# Open blocks stand at the top

A block is only found when its braces balance, and then every group inside it is closed inside it.
So a scan inside a found block leaves nothing open, however deep it is, and a brace that is missing
somewhere costs the whole block at the top: that block is left out, and nothing inside it is told.

* `head?_scanFrom_of_missing_brace`: a block that lacks a brace is left out;
* `Block.FoundIn.not_skipped`: no scan inside a found block leaves anything out;
* `Report.filter_unterminated`: the open blocks in a report are those of the whole document;
* `unterminated_only_at_top`: all of this, and the keywords that an open block can start with.
-/
import ContextAtlas.Proofs.Skipped.Report

namespace ContextAtlas

/-! ## 1. A missing brace -/

/-- Without one of the closing braces inside it, a group takes its own closing brace for that one,
and stays open unless closing braces are left over behind it. -/
theorem not_closes_of_missing_brace {front back behind : List Token} {c closer : Token}
    (hc : c.is .closeBrace = true) (hbalanced : Balanced (front ++ c :: back))
    (hcloser : closer.is .closeBrace = true) (hbehind : ¬ Closes behind) :
    ¬ Closes (front ++ back ++ closer :: behind) := by
  rw [← splitBody_ne_none_iff, not_not, splitBody_eq_none_iff] at hbehind ⊢
  obtain ⟨e, he⟩ := hbehind
  refine ⟨e, ?_⟩
  unfold Balanced at hbalanced
  rw [openAfter?_append] at hbalanced
  obtain ⟨depth, hfront, hback⟩ := Option.bind_eq_some_iff.mp hbalanced
  cases depth with
  | zero => simp [openAfter?_close_zero hc] at hback
  | succ d =>
    rw [openAfter?_close hc] at hback
    have hback' := openAfter?_add 1 hback
    rw [Nat.zero_add] at hback'
    rw [openAfter?_append, openAfter?_append, hfront, Option.bind_some, hback', Option.bind_some,
      openAfter?_close hcloser, he]

/-- **A block without one of the closing braces inside it is left out as a whole, unless closing
braces are left over behind it.** -/
theorem head?_scanFrom_of_missing_brace {keyword : String} {nameOptional : Bool}
    {before : Option Token} {t opener c closer : Token} {r front back behind : List Token}
    {header : Header} (ht : t.isWord keyword = true)
    (hh : Header.read? nameOptional r = some (header, opener, front ++ back ++ closer :: behind))
    (hc : c.is .closeBrace = true) (hbalanced : Balanced (front ++ c :: back))
    (hcloser : closer.is .closeBrace = true) (hbehind : ¬ Closes behind) :
    ∃ run, (scanFrom keyword nameOptional before (t :: r)).head?
      = some (.skipped (.ofTokens .unterminatedBlock (t :: run))) := by
  have hopen : splitBody 0 (front ++ back ++ closer :: behind) = none := by
    by_contra hsplit
    exact not_closes_of_missing_brace hc hbalanced hcloser hbehind (splitBody_ne_none_iff.mp hsplit)
  rw [scanFrom_of_open ht hh hopen]
  exact ⟨_, rfl⟩

/-! ## 2. Inside found blocks -/

theorem mem_skippedRuns {α : Type} {s : Skipped} {outcomes : List (Outcome α)} :
    s ∈ skippedRuns outcomes ↔ .skipped s ∈ outcomes := by
  rw [skippedRuns, List.mem_filterMap]
  constructor
  · rintro ⟨o, ho, hs⟩
    cases o with
    | matched a => cases hs
    | skipped s' =>
      cases hs
      exact ho
  · intro h
    exact ⟨_, h, rfl⟩

theorem Block.FoundIn.balanced {ts : List Token} {nameOptional : Bool} {b : Block}
    (h : b.FoundIn ts nameOptional) : Balanced b.body := by
  obtain ⟨site⟩ := h.exists_site
  exact site.balanced

theorem Block.FoundIn.not_skipped {ts : List Token} {nameOptional : Bool} {b : Block}
    (h : b.FoundIn ts nameOptional) (keyword : String) (inner : Bool) (s : Skipped) :
    .skipped s ∉ b.scan keyword inner := by
  have hnone : skippedRuns (b.scan keyword inner) = [] :=
    skippedRuns_scanFrom_of_closed h.balanced.closed
  rw [← mem_skippedRuns, hnone]
  exact List.not_mem_nil

/-! ## 3. Reports -/

/-- A skipped run about an open block. -/
def Skipped.isOpenBlock (e : Skipped) : Bool := e.reason = .unterminatedBlock

theorem filter_isOpenBlock_scan (keyword : String) (nameOptional : Bool) (ts : List Token) :
    (skippedRuns (scanBlocks keyword nameOptional ts)).filter Skipped.isOpenBlock
      = skippedRuns (scanBlocks keyword nameOptional ts) := by
  rw [List.filter_eq_self]
  intro e he
  obtain ⟨t, r, -, -, rfl⟩ := exists_run_of_mem_scanFrom he
  rfl

theorem filter_isOpenBlock_eq_nil {es : List Skipped}
    (h : ∀ e ∈ es, e.reason ≠ .unterminatedBlock) : es.filter Skipped.isOpenBlock = [] := by
  rw [List.filter_eq_nil_iff]
  intro e he hopen
  exact h e he (by simpa [Skipped.isOpenBlock] using hopen)

/-- **The open blocks that a report tells of are those of the scans of the whole document, in
order.** -/
theorem Report.filter_unterminated (text : List Char) :
    (ofTokens (lex text)).skipped.filter Skipped.isOpenBlock = openBlocks (lex text) := by
  have hordered := ordered_lex text
  have hconnectors : (skippedConnectors (lex text)).filter Skipped.isOpenBlock = [] := by
    refine filter_isOpenBlock_eq_nil fun e he => ?_
    rw [(skips_skippedConnectors hordered).1 e he]
    simp
  have hlines : (skippedLines (lex text)).filter Skipped.isOpenBlock = [] := by
    refine filter_isOpenBlock_eq_nil fun e he hreason => ?_
    have habout := (faithful_skippedLines hordered).reasons e he
    rw [hreason] at habout
    simp [SkipReason.isAboutLine] at habout
  rw [skipped_ofTokens]
  simp only [List.filter_append, filter_isOpenBlock_scan, hconnectors, hlines, openBlocks,
    openScans, List.flatMap_cons, List.flatMap_nil, List.append_nil, List.nil_append,
    List.append_assoc]

/-- The text of a run starts with its first token. -/
theorem exists_fragmentText_cons (t : Token) (r : List Token) :
    ∃ rest, fragmentText (t :: r) = t.lexeme.quoted ++ rest := by
  cases r with
  | nil => exact ⟨"", by simp [fragmentText]⟩
  | cons u r =>
    refine ⟨" " ++ fragmentText (u :: r), ?_⟩
    simp only [fragmentText, List.map_cons, String.intercalate_cons_cons, String.append_assoc]

theorem exists_start_of_mem_openBlocks {ts : List Token} {e : Skipped} (he : e ∈ openBlocks ts) :
    ∃ keyword ∈ openScans.map Prod.fst, ∃ t r, t.isWord keyword = true ∧ t :: r <:+: ts
      ∧ e = .ofTokens .unterminatedBlock (t :: r) ∧ ∃ rest, e.fragment = keyword ++ rest := by
  obtain ⟨x, hx, he⟩ := List.mem_flatMap.mp he
  obtain ⟨t, r, ht, hin, rfl⟩ := exists_run_of_mem_scanFrom he
  have hword : t.lexeme = .word x.1 := by simpa [Token.isWord] using ht
  obtain ⟨rest, hrest⟩ := exists_fragmentText_cons t r
  rw [hword] at hrest
  exact ⟨x.1, List.mem_map_of_mem hx, t, r, ht, hin, rfl, rest, hrest⟩

/-- **Only what is looked for in the whole document can be open.**  Nothing is open inside a block
that was found at whatever depth; a missing brace takes the block around it with it; and so each
open block in a report starts with one of the keywords that are looked for in the whole document. -/
theorem unterminated_only_at_top :
    (∀ (ts : List Token) (nameOptional : Bool) (b : Block), b.FoundIn ts nameOptional →
      Balanced b.body ∧ ∀ keyword inner s, .skipped s ∉ b.scan keyword inner)
    ∧ (∀ keyword nameOptional before t r header opener front c back closer behind,
      t.isWord keyword = true →
      Header.read? nameOptional r = some (header, opener, front ++ back ++ closer :: behind) →
      c.is .closeBrace = true → Balanced (front ++ c :: back) →
      closer.is .closeBrace = true → ¬ Closes behind →
      ∃ run, (scanFrom keyword nameOptional before (t :: r)).head?
        = some (.skipped (.ofTokens .unterminatedBlock (t :: run))))
    ∧ ∀ source : String,
      (Report.ofText source).skipped.filter (fun e => e.reason = .unterminatedBlock)
          = openBlocks (lex (stripComments source.toList))
        ∧ ∀ e ∈ (Report.ofText source).skipped, e.reason = .unterminatedBlock →
          ∃ keyword ∈ ["ContextMap", "BoundedContext", "Domain", "UseCase", "UserStory"],
            ∃ t r, t.isWord keyword = true ∧ t :: r <:+: lex (stripComments source.toList)
              ∧ e = .ofTokens .unterminatedBlock (t :: r)
              ∧ ∃ rest, e.fragment = keyword ++ rest := by
  refine ⟨?_, ?_, ?_⟩
  · intro ts nameOptional b h
    exact ⟨h.balanced, h.not_skipped⟩
  · intro keyword nameOptional before t r header opener front c back closer behind ht hh hc
      hbalanced hcloser hbehind
    exact head?_scanFrom_of_missing_brace ht hh hc hbalanced hcloser hbehind
  · intro source
    have hopen := Report.filter_unterminated (stripComments source.toList)
    refine ⟨hopen, fun e he hreason => ?_⟩
    have hmem : e ∈ openBlocks (lex (stripComments source.toList)) := by
      rw [← hopen]
      exact List.mem_filter.mpr ⟨he, by simpa [Skipped.isOpenBlock] using hreason⟩
    exact exists_start_of_mem_openBlocks hmem

/-- An entity two blocks deep; a context that is left out because of its aggregate; and the report
on a document with that context in it. -/
theorem unterminated_only_at_top_sample :
    (∃ b : Block, b.FoundIn (lex ("BoundedContext Shop \x7b Aggregate Cart \x7b "
          ++ "Entity Item \x7b Entity Part \x7b \x7d \x7d \x7d \x7d").toList) false
        ∧ b.keyword = "Entity" ∧ Balanced b.body
        ∧ ∀ keyword inner s, .skipped s ∉ b.scan keyword inner)
    ∧ (∃ run, (scanFrom "BoundedContext" false none
          (lex "BoundedContext Shop \x7b Aggregate Cart \x7b \x7d".toList)).head?
        = some (.skipped (.ofTokens .unterminatedBlock
            (⟨.word "BoundedContext", ⟨1, 1, 0⟩⟩ :: run))))
    ∧ ∃ e ∈ (Report.ofText
          "Domain Sale \x7b \x7d BoundedContext Shop \x7b Aggregate Cart \x7b \x7d").skipped,
        e.reason = .unterminatedBlock
        ∧ ∃ keyword ∈ ["ContextMap", "BoundedContext", "Domain", "UseCase", "UserStory"],
          ∃ rest, e.fragment = keyword ++ rest := by
  obtain ⟨hinside, haround, hreport⟩ := unterminated_only_at_top
  refine ⟨?_, ?_, ?_⟩
  · have hfound : ∃ c ∈ matchedValues (scanBlocks "BoundedContext" false
          (lex ("BoundedContext Shop \x7b Aggregate Cart \x7b "
            ++ "Entity Item \x7b Entity Part \x7b \x7d \x7d \x7d \x7d").toList)),
        ∃ a ∈ matchedValues (c.scan "Aggregate" false),
          ∃ b ∈ matchedValues (a.scan "Entity" false), b.keyword = "Entity" := by
      decide +kernel
    obtain ⟨c, hc, a, ha, b, hb, hkeyword⟩ := hfound
    have hin := ((Block.FoundIn.scan hc).nested ha).nested hb
    exact ⟨b, hin, hkeyword, hinside _ _ b hin⟩
  · have hnone : ¬ Closes [] := fun h => splitBody_ne_none_iff.mpr h rfl
    have htokens : lex "BoundedContext Shop \x7b Aggregate Cart \x7b \x7d".toList
        = ⟨.word "BoundedContext", ⟨1, 1, 0⟩⟩
          :: (lex "BoundedContext Shop \x7b Aggregate Cart \x7b \x7d".toList).tail := by
      decide +kernel
    rw [htokens]
    exact haround "BoundedContext" false none ⟨.word "BoundedContext", ⟨1, 1, 0⟩⟩
      (lex "BoundedContext Shop \x7b Aggregate Cart \x7b \x7d".toList).tail ⟨some "Shop", none⟩
      ⟨.mark .openBrace, ⟨1, 21, 20⟩⟩
      [⟨.word "Aggregate", ⟨1, 23, 22⟩⟩, ⟨.word "Cart", ⟨1, 33, 32⟩⟩,
        ⟨.mark .openBrace, ⟨1, 38, 37⟩⟩]
      ⟨.mark .closeBrace, ⟨1, 40, 39⟩⟩ [] ⟨.mark .closeBrace, ⟨1, 40, 39⟩⟩ []
      (by decide) (by decide +kernel) (by decide) (by decide) (by decide) hnone
  · have hopen : ∃ e ∈ (Report.ofText
          "Domain Sale \x7b \x7d BoundedContext Shop \x7b Aggregate Cart \x7b \x7d").skipped,
        e.reason = .unterminatedBlock := by
      decide +kernel
    obtain ⟨e, he, hreason⟩ := hopen
    obtain ⟨keyword, hk, t, r, -, -, -, hstart⟩ := (hreport _).2 e he hreason
    exact ⟨e, he, hreason, keyword, hk, hstart⟩

end ContextAtlas
