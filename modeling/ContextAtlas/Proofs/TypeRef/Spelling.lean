/-
# Types are read back from their spelling

A type that was read can be spelled without blanks and without sigils.  The tokens of that text are
those that the type was read from, but for the sigils, so that the text is read as the same type.

* `spaced_text`: the text of a written type holds its lexemes, and no word runs into the next;
* `lexemes_lex_text`: so these are its tokens;
* `TypeRef.read?_lex_spell`: the spelling of a type that was read from a text, and reading it back.

A wrapper that is no collection is kept as text, and so is all that it wraps.  Its argument has to
be read again, with the levels that it took the first time; a type and its spelling nest equally
deep (`TypeTerm.depth_bare`).
-/
import ContextAtlas.Proofs.Shape.Member
import ContextAtlas.Proofs.Token.Spaced

namespace ContextAtlas

open Source

/-! ## 1. Lexemes without blanks -/

theorem isGap_nil : IsGap [] := by simp [IsGap]

theorem Spaced.word {w : String} {row : List Lexeme} {rest : List Char} (h : Spaced row rest)
    (hrest : ∀ c ∈ rest.head?, isWordPart c = false) :
    Spaced (.word w :: row) (w.toList ++ rest) :=
  .cons isGap_nil h fun _ _ => hrest

theorem Spaced.mark {m : Mark} {row : List Lexeme} {rest : List Char} (h : Spaced row rest) :
    Spaced (.mark m :: row) (m.text.toList ++ rest) :=
  .cons isGap_nil h fun _ hw => by simp at hw

/-- No mark of a type goes on with a word. -/
theorem isWordPart_of_mark {m : Mark} (hm : m ∈ [Mark.openAngle, .closeAngle, .comma])
    (rest : List Char) : ∀ c ∈ (m.text.toList ++ rest).head?, isWordPart c = false := by
  simp only [List.mem_cons, List.not_mem_nil, or_false] at hm
  rcases hm with rfl | rfl | rfl <;> simp [Mark.text] <;> decide

/-- The text of a type holds its lexemes without sigils, in front of anything that does not go on
with its last word. -/
theorem spaced_text : ∀ (T : TypeTerm) {row : List Lexeme} {rest : List Char}, Spaced row rest →
    (∀ c ∈ rest.head?, isWordPart c = false) →
    Spaced (T.bare.lexemes ++ row) (T.text.toList ++ rest)
  | .name s w, row, rest, h, hrest => by
    rw [TypeTerm.text_name]
    exact h.word hrest
  | .wrapper s w hw t, row, rest, h, _ => by
    have hargument := spaced_text t (h.mark (m := .closeAngle)) (isWordPart_of_mark (by decide) _)
    have hopen := (hargument.mark (m := .openAngle)).word (w := w)
      (isWordPart_of_mark (by decide) _)
    simpa [TypeTerm.bare, TypeTerm.lexemes, optionalSigil, Mark.text] using hopen
  | .map s k v, row, rest, h, _ => by
    have hvalue := spaced_text v (h.mark (m := .closeAngle)) (isWordPart_of_mark (by decide) _)
    have hkey := spaced_text k (hvalue.mark (m := .comma)) (isWordPart_of_mark (by decide) _)
    have hopen := (hkey.mark (m := .openAngle)).word (w := "Map")
      (isWordPart_of_mark (by decide) _)
    simpa [TypeTerm.bare, TypeTerm.lexemes, optionalSigil, Mark.text] using hopen

/-! ## 2. Reading a spelling -/

section

variable {T : TypeTerm} (hwords : ∀ w, .word w ∈ T.lexemes → IsIdentifier w)

include hwords

theorem plain_bare : ∀ x ∈ T.bare.lexemes, Plain x := by
  intro x hx
  rw [TypeTerm.lexemes_bare] at hx
  have hmem := List.mem_of_mem_filter hx
  rcases TypeTerm.mem_lexemes hmem with ⟨w, rfl⟩ | ⟨m, hm, rfl⟩
  · exact .word (hwords w hmem)
  · have hwritten : ∀ m ∈ [Mark.sigil, .openAngle, .closeAngle, .comma], m ∈ writtenMarks := by
      decide
    exact .mark (hwritten m hm)

/-- **The tokens of a type's text are its words and marks without the sigils.** -/
theorem lexemes_lex_text : (lex T.text.toList).map Token.lexeme = T.bare.lexemes := by
  have hgap : Spaced [] [] := .nil isGap_nil
  have hspaced := spaced_text T hgap (by simp)
  rw [List.append_nil, List.append_nil] at hspaced
  exact (lexFrom_spaced hspaced (plain_bare hwords) .start).1

/-- The text of a type is read as the type that is meant. -/
theorem read?_lex_text (hdepth : T.depth ≤ maxTypeDepth) :
    TypeRef.read? (lex T.text.toList) = some (T.meaning, []) := by
  refine TypeRef.read?_eq_some_iff.mpr ⟨T.bare, _, (List.append_nil _).symm,
    lexemes_lex_text hwords, ?_, TypeTerm.endsBefore_of_head (by simp), T.meaning_bare.symm⟩
  rwa [TypeTerm.depth_bare]

end

namespace TypeRef

/-- What is read from tokens whose words are identifiers has their values as its spelling, and is
read back from it. -/
theorem read?_lex_spell_of_legible {ts rest : List Token} {type : TypeRef} (hts : Legible ts)
    (h : read? ts = some (type, rest)) :
    (∃ run, ts = run ++ rest
      ∧ type.spell = String.join ((run.filter (!·.is .sigil)).map Token.value))
      ∧ read? (lex type.spell.toList) = some (type, []) := by
  obtain ⟨T, run, rfl, hrun, hdepth, -, rfl⟩ := read?_eq_some_iff.mp h
  have hwords : ∀ w, .word w ∈ T.lexemes → IsIdentifier w := by
    intro w hw
    rw [← hrun] at hw
    obtain ⟨t, ht, hlexeme⟩ := List.mem_map.mp hw
    exact hts t (List.mem_append_left rest ht) w (by simp [Token.word?, hlexeme])
  rw [TypeTerm.spell_meaning]
  exact ⟨⟨run, rfl, (join_values_of_spelled hrun).symm⟩, read?_lex_text hwords hdepth⟩

/-- **A type is told by its spelling.**  The spelling of a type that is read from a text at any of
its tokens is what these tokens say without the sigils; reading it gives the type back, with no
token left; and no other type that is read from a text has that spelling. -/
theorem read?_lex_spell (text : List Char) (i : Nat) (type : TypeRef) (rest : List Token)
    (h : read? ((lex text).drop i) = some (type, rest)) :
    (∃ run, (lex text).drop i = run ++ rest
      ∧ type.spell = String.join ((run.filter (!·.is .sigil)).map Token.value))
      ∧ read? (lex type.spell.toList) = some (type, [])
      ∧ ∀ (text' : List Char) (i' : Nat) (type' : TypeRef) (rest' : List Token),
        read? ((lex text').drop i') = some (type', rest') → type'.spell = type.spell →
        type' = type := by
  have hlegible (text : List Char) (i : Nat) : Legible ((lex text).drop i) :=
    (legible_lex text).of_sublist (List.drop_sublist i _)
  obtain ⟨hrun, hback⟩ := read?_lex_spell_of_legible (hlegible text i) h
  refine ⟨hrun, hback, ?_⟩
  intro text' i' type' rest' h' hspell
  obtain ⟨-, hback'⟩ := read?_lex_spell_of_legible (hlegible text' i') h'
  rw [hspell, hback] at hback'
  cases hback'
  rfl

/-- An unknown wrapper around a map, with sigils and blanks, behind another word. -/
theorem read?_lex_spell_wrapper :
    read? ((lex "x Maybe < @Map<@Key, List<int>> > y".toList).drop 1)
      = some (.named "Maybe<Map<Key,List<int>>>", [⟨.word "y", ⟨1, 35, 34⟩⟩])
    ∧ read? (lex "Maybe<Map<Key,List<int>>>".toList)
      = some (.named "Maybe<Map<Key,List<int>>>", []) := by
  have hread : read? ((lex "x Maybe < @Map<@Key, List<int>> > y".toList).drop 1)
      = some (.named "Maybe<Map<Key,List<int>>>", [⟨.word "y", ⟨1, 35, 34⟩⟩]) := by
    decide +kernel
  exact ⟨hread, (read?_lex_spell _ 1 _ _ hread).2.1⟩

end TypeRef

end ContextAtlas
