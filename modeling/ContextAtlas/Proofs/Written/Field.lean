/-
# Reading the lines of fields

A field is written on one line, and that line is read as the attribute that is meant: its first
word is no visibility and announces no operation, no sigil makes it a reference, and its type ends
where its name starts.

* `Source.Field.written`: a field as a written attribute, which it means;
* `Attribute.read?_laidRow`, `Members.ofLine_laidRow`: the line of a field is read as what it means.
-/
import ContextAtlas.Member.Lines
import ContextAtlas.Proofs.Written.Attribute
import ContextAtlas.Proofs.Written.Text

namespace ContextAtlas

open Source

/-! ## 1. What a field is written with -/

@[simp] theorem laidRow_nil (line : Nat) : laidRow line [] = [] := rfl

@[simp] theorem laidRow_cons (line : Nat) (x : Lexeme) (row : List Lexeme) :
    laidRow line (x :: row) = ⟨x, .ofLine line⟩ :: laidRow line row := rfl

@[simp] theorem laidRow_append (line : Nat) (row row' : List Lexeme) :
    laidRow line (row ++ row') = laidRow line row ++ laidRow line row' := List.map_append

theorem exists_of_mem_laidRow {line : Nat} {row : List Lexeme} {t : Token}
    (h : t ∈ laidRow line row) : t.lexeme ∈ row ∧ t.line = line := by
  obtain ⟨x, hx, rfl⟩ := List.mem_map.mp h
  exact ⟨hx, rfl⟩

/-- The lexemes of fields: identifiers that open no block, and the marks of types. -/
def IsFieldLexeme (x : Lexeme) : Prop :=
  (∃ w, x = .word w ∧ IsIdentifier w ∧ w ∉ constructKeywords)
    ∨ x ∈ [Lexeme.mark .openAngle, .mark .closeAngle, .mark .comma]

theorem Source.Name.not_construct (n : Name) : n.text ∉ constructKeywords := fun h =>
  n.not_reserved (by simp [reservedWords, h])

theorem Source.Name.isFieldLexeme (n : Name) : IsFieldLexeme (.word n.text) :=
  .inl ⟨n.text, rfl, n.isIdentifier, n.not_construct⟩

theorem Source.TypeExpr.isFieldLexeme : ∀ {T : TypeExpr}, ∀ x ∈ T.lexemes, IsFieldLexeme x
  | .name n, x, hx => by
    obtain rfl := List.mem_singleton.mp hx
    exact n.isFieldLexeme
  | .wrapped n _ t, x, hx => by
    simp only [lexemes, List.mem_cons, List.mem_append, List.not_mem_nil, or_false] at hx
    rcases hx with rfl | rfl | hx | rfl
    · exact n.isFieldLexeme
    · exact .inr (by simp)
    · exact t.isFieldLexeme x hx
    · exact .inr (by simp)
  | .map k v, x, hx => by
    simp only [lexemes, List.mem_cons, List.mem_append, List.not_mem_nil, or_false] at hx
    rcases hx with rfl | rfl | hx | rfl | hx | rfl
    · exact .inl ⟨"Map", rfl, by decide, by decide⟩
    · exact .inr (by simp)
    · exact k.isFieldLexeme x hx
    · exact .inr (by simp)
    · exact v.isFieldLexeme x hx
    · exact .inr (by simp)

theorem Source.Flag.isFieldLexeme (a : Flag) : IsFieldLexeme (.word (Spelled.spell a)) := by
  refine .inl ⟨_, rfl, ?_⟩
  cases a <;> exact ⟨by decide, by decide⟩

theorem Source.Field.isFieldLexeme (f : Field) : ∀ x ∈ f.row, IsFieldLexeme x := by
  intro x hx
  simp only [row, List.mem_append, List.mem_cons, List.mem_map] at hx
  rcases hx with hx | rfl | ⟨a, -, rfl⟩
  · exact f.type.isFieldLexeme x hx
  · exact f.name.isFieldLexeme
  · exact a.isFieldLexeme

theorem IsFieldLexeme.plain {x : Lexeme} (h : IsFieldLexeme x) : Plain x := by
  rcases h with ⟨w, rfl, hw, -⟩ | h
  · exact .word hw
  · simp only [List.mem_cons, List.not_mem_nil, or_false] at h
    rcases h with rfl | rfl | rfl <;> exact .mark (by decide)

/-- A token of a field is none of the marks that say more than a type. -/
theorem IsFieldLexeme.not_is {t : Token} (h : IsFieldLexeme t.lexeme) {m : Mark}
    (hm : m ∉ [Mark.openAngle, .closeAngle, .comma]) : t.is m = false := by
  rw [← Bool.not_eq_true]
  intro ht
  have ht' : t.lexeme = .mark m := by simpa [Token.is] using ht
  rw [ht'] at h
  rcases h with ⟨w, hw, -⟩ | h
  · simp at hw
  · exact hm (by simpa using h)

/-! ## 2. Types -/

/-- A type of a document as one that is written without sigils. -/
def Source.TypeExpr.term : TypeExpr → TypeTerm
  | .name n => .name false n.text
  | .wrapped n hn t => .wrapper false n.text hn t.term
  | .map k v => .map false k.term v.term

theorem Source.TypeExpr.lexemes_term : ∀ T : TypeExpr, T.term.lexemes = T.lexemes
  | .name n => rfl
  | .wrapped n hn t => by simp [term, TypeTerm.lexemes, lexemes, optionalSigil, lexemes_term t]
  | .map k v => by
    simp [term, TypeTerm.lexemes, lexemes, optionalSigil, lexemes_term k, lexemes_term v]

theorem Source.TypeExpr.depth_term : ∀ T : TypeExpr, T.term.depth = T.depth
  | .name n => rfl
  | .wrapped n hn t => by rw [term, TypeTerm.depth, depth, depth_term t]
  | .map k v => by rw [term, TypeTerm.depth, depth, depth_term k, depth_term v]

theorem Source.TypeExpr.meaning_term : ∀ T : TypeExpr, T.term.meaning = T.meaning
  | .name n => rfl
  | .wrapped n hn t => by rw [term, TypeTerm.meaning_wrapper, meaning, meaning_term t]
  | .map k v => by rw [term, TypeTerm.meaning, meaning, meaning_term k, meaning_term v]

/-- A written type starts with a word that says nothing about the line. -/
theorem Source.TypeExpr.exists_lexemes (T : TypeExpr) :
    ∃ w row, T.lexemes = .word w :: row ∧ w ∉ visibilityWords ∧ w ≠ "def" := by
  have hname : ∀ n : Name, n.text ∉ visibilityWords ∧ n.text ≠ "def" := by
    intro n
    exact ⟨fun h => n.not_reserved (by simp [reservedWords, h]),
      fun h => n.not_reserved (by simp [reservedWords, h])⟩
  cases T with
  | name n => exact ⟨n.text, [], rfl, hname n⟩
  | wrapped n hn t => exact ⟨n.text, _, rfl, hname n⟩
  | map k v => exact ⟨"Map", _, rfl, by decide, by decide⟩

/-! ## 3. Fields -/

/-- A field as an attribute without a visibility, whose items are all bare words. -/
def Source.Field.written (f : Field) : Source.Attribute where
  visibility := none
  type := f.type.term
  name := f.name.text
  items := f.flags.map fun a => .bare (Spelled.spell a)
  terminators := 0
  type_depth := by
    rw [f.type.depth_term]
    exact f.depth_le
  type_start := by
    rintro - w hw
    obtain ⟨v, row, hrow, hv, -⟩ := f.type.exists_lexemes
    obtain rfl : v = w := by simpa [f.type.lexemes_term, hrow] using hw
    exact hv

theorem Source.Field.bodyLexemes_written (f : Field) : f.written.bodyLexemes = f.row := by
  have hitems : f.written.items.flatMap Item.lexemes
      = f.flags.map fun a => .word (Spelled.spell a) := by
    rw [written, List.flatMap_map, List.map_eq_flatMap]
    rfl
  rw [Source.Attribute.bodyLexemes, hitems, row, ← f.type.lexemes_term]
  rfl

theorem spell_injective {α : Type} [Spelled α] {a b : α} (h : Spelled.spell a = Spelled.spell b) :
    a = b := by
  have ha := Spelled.read?_spell a
  rw [h, Spelled.read?_spell, Option.some.injEq] at ha
  exact ha.symm

theorem Source.Field.bare_mem_written (f : Field) (a : Flag) :
    decide (.bare (Spelled.spell a) ∈ f.written.items) = f.flags.contains a := by
  rw [Bool.eq_iff_iff, decide_eq_true_iff, List.contains_iff_mem, written, List.mem_map]
  constructor
  · rintro ⟨b, hb, h⟩
    rw [← spell_injective (Item.bare.inj h)]
    exact hb
  · exact fun ha => ⟨a, ha, rfl⟩

theorem Source.Field.lastValue?_written (f : Field) (key : String) :
    lastValue? f.written.items key = none := by
  simp [lastValue?, written, List.filterMap_map, Item.valueFor?]

theorem Source.Field.meaning_written (f : Field) : f.written.meaning = f.meaning := by
  have hflag := f.bare_mem_written
  simp only [Source.Attribute.meaning, f.lastValue?_written, Field.meaning, ← hflag]
  rw [written, f.type.meaning_term]
  rfl

theorem Attribute.read?_laidRow (line : Nat) (f : Field) :
    read? (laidRow line f.row) = .ok f.meaning := by
  rw [← f.meaning_written]
  refine read?_written f.written ?_
  rw [f.bodyLexemes_written]
  simp [laidRow, Function.comp_def]

theorem Members.ofLine_laidRow (flags : List String) (withOperations : Bool) (line : Nat)
    (f : Field) :
    ofLine flags withOperations (laidRow line f.row) = { attributes := [f.meaning] } := by
  have hlexeme : ∀ t ∈ laidRow line f.row, IsFieldLexeme t.lexeme := fun t ht =>
    f.isFieldLexeme _ (exists_of_mem_laidRow ht).1
  have hrun : withoutTerminators (laidRow line f.row) = laidRow line f.row := by
    have hsemicolon : ∀ t ∈ laidRow line f.row, t.is .semicolon = false := fun t ht =>
      (hlexeme t ht).not_is (by decide)
    have happend : withoutTerminators (laidRow line f.row ++ []) = laidRow line f.row :=
      withoutTerminators_append (by simp) fun t ht => hsemicolon t (List.mem_of_getLast? ht)
    simpa using happend
  have hsigil : (laidRow line f.row).any (·.is .sigil) = false := by
    rw [List.any_eq_false]
    intro t ht
    simp [(hlexeme t ht).not_is (m := .sigil) (by decide)]
  obtain ⟨w, row, hw, -, hdef⟩ := f.type.exists_lexemes
  have hkind : lineKind? (laidRow line f.row) = some .attribute := by
    rw [Field.row, hw] at hsigil ⊢
    simp only [List.cons_append, laidRow_cons] at hsigil ⊢
    simp [lineKind?, Token.is, Token.announcesOperation, Token.isWord, hdef]
    simpa [Token.is] using hsigil
  have hflag : flag? flags (laidRow line f.row) = none := by
    rw [Field.row, hw]
    cases row <;> rfl
  unfold ofLine
  simp only [hrun, hflag, hkind, Attribute.ofLine, Attribute.read?_laidRow]
  rfl

end ContextAtlas
