/-
# Written string literals

Every text is the value of a string literal: quotes, backslashes, line feeds and tabs are written as
escapes, and everything else as it is.  Such a literal ends at its own closing quote, whatever
stands in it and behind it, so what looks like another token in it is none.

* `Spells`: what can be written for a value, between the quotes; `spells_escapeLiteral`: one way;
* `readLiteral_of_spells`: reading gives the value, up to the closing quote;
* `lex_writeLiteral`: the tokens of a text with a literal in it.
-/
import ContextAtlas.Proofs.Token.Tiling

namespace ContextAtlas

open Text

/-! ## 1. Content and value -/

/-- The written content of a string literal and its value.  A character stands for itself if it has
no meaning of its own there, or is given by an escape. -/
inductive Spells : List Char → List Char → Prop
  | nil : Spells [] []
  | plain {c : Char} {content value : List Char} : c ≠ '"' → c ≠ '\\' → c ≠ '\n' →
      Spells content value → Spells (c :: content) (c :: value)
  | escape {c d : Char} {content value : List Char} : unescape? d = some c →
      Spells content value → Spells ('\\' :: d :: content) (c :: value)

theorem spells_self : ∀ {value : List Char}, '"' ∉ value → '\\' ∉ value → '\n' ∉ value →
    Spells value value
  | [], _, _, _ => .nil
  | c :: value, hq, hb, hn => by
    rw [List.mem_cons, not_or] at hq hb hn
    exact .plain (Ne.symm hq.1) (Ne.symm hb.1) (Ne.symm hn.1) (spells_self hq.2 hb.2 hn.2)

theorem unescape?_of_escape? {c d : Char} (h : escape? c = some d) : unescape? d = some c := by
  unfold escape? at h
  split at h
  case h_5 => simp at h
  all_goals
    obtain rfl := Option.some.inj h
    rfl

theorem plain_of_escape?_eq_none {c : Char} (h : escape? c = none) :
    c ≠ '"' ∧ c ≠ '\\' ∧ c ≠ '\n' := by
  refine ⟨?_, ?_, ?_⟩ <;>
    · rintro rfl
      simp [escape?] at h

theorem spells_escapeLiteral (value : List Char) : Spells (escapeLiteral value) value := by
  induction value with
  | nil => exact .nil
  | cons c value ih =>
    rw [escapeLiteral, List.flatMap_cons]
    cases h : escape? c with
    | none =>
      obtain ⟨hq, hb, hn⟩ := plain_of_escape?_eq_none h
      exact .plain hq hb hn ih
    | some d => exact .escape (unescape?_of_escape? h) ih

/-! ## 2. Reading it back -/

theorem readLiteral_of_spells {content value : List Char} (h : Spells content value)
    (rest : List Char) :
    readLiteral (content ++ '"' :: rest) = (value, content.length + 1) := by
  induction h with
  | nil => simp [readLiteral]
  | plain hq hb hn _ ih =>
    rw [List.cons_append, readLiteral]
    · simp [hq, hn, ih]
    · exact fun _ _ h _ => hb h
  | @escape c d content value hd _ ih =>
    have hn : d ≠ '\n' := by
      rintro rfl
      simp [unescape?] at hd
    rw [List.cons_append, List.cons_append, readLiteral, if_neg hn, ih, hd]
    rfl

theorem writtenAs_of_spells {content value : List Char} (h : Spells content value)
    (rest : List Char) :
    (Lexeme.string (String.ofList value)).WrittenAs ('"' :: (content ++ ['"'])) rest := by
  refine ⟨'"', content ++ ['"'], rfl, by decide, ?_⟩
  rw [List.append_assoc, List.singleton_append, Lexeme.read_quote, readLiteral_of_spells h,
    List.length_append, List.length_singleton]

/-- A string literal with the given value. -/
def writeLiteral (value : String) : List Char := '"' :: (escapeLiteral value.toList ++ ['"'])

theorem writtenAs_writeLiteral (value : String) (rest : List Char) :
    (Lexeme.string value).WrittenAs (writeLiteral value) rest := by
  have h := writtenAs_of_spells (spells_escapeLiteral value.toList) rest
  rwa [String.ofList_toList] at h

/-- **A literal that starts a line is one token with its value**, whatever stands in front of the
line, and the text behind it is read as it is on its own, from where the literal ends. -/
theorem lex_writeLiteral {front : List Char} (h : front = [] ∨ front.getLast? = some '\n')
    (value : String) (rest : List Char) :
    lex (front ++ writeLiteral value ++ rest)
        = lex front ++ ⟨.string value, Position.after front⟩
          :: (lex rest).map (Token.moved (Position.after (front ++ writeLiteral value)).inside)
      ∧ Position.after (front ++ writeLiteral value ++ rest)
        = (Position.after (front ++ writeLiteral value)).inside (Position.after rest) := by
  generalize hend : Position.after (front ++ writeLiteral value) = behind
  have hplace := after_eq_placeOf (front ++ writeLiteral value)
  rw [hend, placeOf] at hplace
  have hline : 1 ≤ behind.line := by
    rw [hplace]
    exact Nat.le_add_right 1 _
  have hcolumn : 1 ≤ behind.column := by
    rw [hplace]
    exact Nat.le_add_right 1 _
  constructor
  · have hwritten := writtenAs_writeLiteral value rest
    have hright : (Position.after front).right (writeLiteral value).length = behind := by
      rw [← foldl_past_of_writtenAs hwritten, ← hend, Position.after, Position.after,
        List.foldl_append]
    rw [List.append_assoc, lex_append_at_line_start h, lexFrom_of_writtenAs hwritten, hright,
      lexFrom_eq_moved hline hcolumn]
  · have hrest : rest.foldl Position.past (behind.inside .start)
        = behind.inside (rest.foldl Position.past .start) :=
      Position.foldl_past_inside rest (Nat.le_refl 1)
    rw [Position.inside_start hline hcolumn] at hrest
    rw [Position.after, List.foldl_append, ← Position.after, hend, hrest, Position.after]

/-- A value with all that is escaped in it, and with what would be other tokens. -/
def sampleValue : String := "\x7b\\\"\n\t->"

/-- The line in front leaves a quote open, and what follows touches the literal. -/
theorem lex_writeLiteral_sample :
    ("a \"\n".toList = [] ∨ "a \"\n".toList.getLast? = some '\n')
      ∧ writeLiteral sampleValue = "\"\x7b\\\\\\\"\\n\\t->\"".toList
      ∧ lex ("a \"\n".toList ++ writeLiteral sampleValue ++ "b\nc".toList)
        = [⟨.word "a", ⟨1, 1, 0⟩⟩, ⟨.string "", ⟨1, 3, 2⟩⟩, ⟨.string sampleValue, ⟨2, 1, 4⟩⟩,
          ⟨.word "b", ⟨2, 14, 17⟩⟩, ⟨.word "c", ⟨3, 1, 19⟩⟩]
      ∧ Position.after ("a \"\n".toList ++ writeLiteral sampleValue ++ "b\nc".toList)
        = ⟨3, 2, 20⟩ := by
  have hstart : "a \"\n".toList = [] ∨ "a \"\n".toList.getLast? = some '\n' := by
    decide +kernel
  obtain ⟨htokens, hend⟩ := lex_writeLiteral hstart sampleValue "b\nc".toList
  exact ⟨hstart, by decide +kernel, htokens.trans (by decide +kernel),
    hend.trans (by decide +kernel)⟩

end ContextAtlas
