/-
# Modifiers

The words and marks in front of a member: its visibility, and the marks that tell references and
operations from attributes.
-/
import ContextAtlas.Member
import ContextAtlas.Token

namespace ContextAtlas

/-- Reads an optional visibility in front of a member. The last token of a line is never one, so
that it can be a name. -/
def readVisibility : List Token → Option Visibility × List Token
  | t :: u :: r =>
    match t.word?.bind Spelled.read? with
    | some v => (some v, u :: r)
    | none => (none, t :: u :: r)
  | ts => (none, ts)

/-- The tokens behind a first token of a kind, if it is there. -/
def afterOptional (p : Token → Bool) : List Token → List Token
  | [] => []
  | t :: r => if p t then r else t :: r

section

variable {p : Token → Bool} {t : Token} {rest : List Token}

theorem afterOptional_of_pos (ht : p t = true) : afterOptional p (t :: rest) = rest := by
  simp [afterOptional, ht]

theorem afterOptional_of_neg (h : ∀ t ∈ rest.head?, p t = false) : afterOptional p rest = rest := by
  cases rest with
  | nil => rfl
  | cons t r => simp [afterOptional, h t rfl]

theorem readVisibility_of_word {u : Token} {v : Visibility}
    (ht : t.lexeme = .word (Spelled.spell v)) :
    readVisibility (t :: u :: rest) = (some v, u :: rest) := by
  have hv : (t.word?.bind Spelled.read? : Option Visibility) = some v := by
    simp [Token.word?, ht, Spelled.read?_spell]
  simp [readVisibility, hv]

theorem readVisibility_of_none
    (h : ∀ t ∈ rest.head?, (t.word?.bind Spelled.read? : Option Visibility) = none) :
    readVisibility rest = (none, rest) := by
  rcases rest with _ | ⟨t, _ | ⟨u, r⟩⟩
  · rfl
  · rfl
  · simp [readVisibility, h t rfl]

/-- What may stand in front of a row is passed over, if it is there. -/
theorem afterOptional_written {b : Bool} {x : Lexeme} {run : List Token}
    (h : run.map Token.lexeme = if b then [x] else []) (hx : ∀ t, t.lexeme = x → p t = true)
    (hnone : b = false → ∀ t ∈ rest.head?, p t = false) : afterOptional p (run ++ rest) = rest := by
  cases b with
  | false =>
    obtain rfl := List.map_eq_nil_iff.mp h
    exact afterOptional_of_neg (hnone rfl)
  | true =>
    obtain ⟨t, rfl, ht⟩ := List.map_eq_singleton_iff.mp h
    exact afterOptional_of_pos (hx t ht)

/-- A written visibility is read in front of whatever the member goes on with. -/
theorem readVisibility_written {v : Option Visibility} {run : List Token}
    (h : run.map Token.lexeme = (v.map fun v => Lexeme.word (Spelled.spell v)).toList)
    (hrest : rest ≠ [])
    (hnone : v = none → ∀ t ∈ rest.head?, (t.word?.bind Spelled.read? : Option Visibility) = none) :
    readVisibility (run ++ rest) = (v, rest) := by
  cases v with
  | none =>
    obtain rfl := List.map_eq_nil_iff.mp h
    exact readVisibility_of_none (hnone rfl)
  | some v =>
    obtain ⟨u, rfl, hu⟩ := List.map_eq_singleton_iff.mp h
    obtain ⟨t, r, rfl⟩ := List.exists_cons_of_ne_nil hrest
    exact readVisibility_of_word hu

end

/-- Whether a token announces an operation: the word `def` or a star. -/
def Token.announcesOperation (t : Token) : Bool := t.is .star || t.isWord "def"

/-! ## The kinds of line -/

/-- What a line of a body holds. -/
inductive LineKind where
  | reference
  | operation
  | attribute
deriving DecidableEq

/-- The kind of a line: a leading minus announces a reference, a star or `def` an operation;
otherwise a sigil anywhere makes it a reference, and what is left is an attribute. An empty line
has no kind. -/
def lineKind? : List Token → Option LineKind
  | [] => none
  | t :: r =>
    if t.is .minus then some .reference
    else if t.announcesOperation then some .operation
    else if (t :: r).any (·.is .sigil) then some .reference
    else some .attribute

theorem exists_lineKind (t : Token) (r : List Token) : ∃ kind, lineKind? (t :: r) = some kind := by
  rw [lineKind?]
  split
  · exact ⟨_, rfl⟩
  · split
    · exact ⟨_, rfl⟩
    · split <;> exact ⟨_, rfl⟩

end ContextAtlas
