/-
# Written attributes are read

An attribute is written as an optional visibility, a type, a name, any number of items, and any
number of semicolons.

* `Source.Attribute`: what is written, its lexemes, and the attribute that is meant;
* `Attribute.read?_written`: what is written is read as what is meant;
* `Attribute.ofLine_writtenAttribute`: so is a line with semicolons at its end, and where no two
  items have one key, the order of the items makes no difference.

The first word of a line is its visibility if it can be one, so the type of an attribute without a
visibility does not start with such a word.
-/
import ContextAtlas.Member.Attribute
import ContextAtlas.Proofs.TypeRef.Grammar
import ContextAtlas.Proofs.Written.Constraint
import ContextAtlas.Proofs.Written.Document

namespace ContextAtlas

namespace Source

/-! ## 1. Written attributes -/

/-- An attribute as it is written. -/
structure Attribute where
  visibility : Option Visibility
  type : TypeTerm
  name : String
  items : List Item
  /-- How many semicolons end the line. -/
  terminators : Nat
  type_depth : type.depth ≤ 64
  type_start : visibility = none → ∀ w, type.lexemes.head? = some (.word w) → w ∉ visibilityWords

namespace Attribute

/-- How an attribute is written up to its semicolons. -/
def bodyLexemes (a : Attribute) : List Lexeme :=
  visibilityRow a.visibility
    ++ (a.type.lexemes ++ .word a.name :: a.items.flatMap Item.lexemes)

/-- How an attribute is written. -/
def lexemes (a : Attribute) : List Lexeme :=
  a.bodyLexemes ++ List.replicate a.terminators (.mark .semicolon)

/-- The attribute that is meant.  A constraint without a value holds if its word is an item of its
own, and the value of a key is the last one that is not empty. -/
def meaning (a : Attribute) : ContextAtlas.Attribute where
  name := a.name
  type := a.type.meaning
  visibility := a.visibility
  key := decide (.bare "key" ∈ a.items)
  required := decide (.bare "required" ∈ a.items)
  nullable := decide (.bare "nullable" ∈ a.items)
  unique := decide (.bare "unique" ∈ a.items)
  email := decide (.bare "email" ∈ a.items)
  past := decide (.bare "past" ∈ a.items)
  future := decide (.bare "future" ∈ a.items)
  notEmpty := decide (.bare "notEmpty" ∈ a.items)
  notBlank := decide (.bare "notBlank" ∈ a.items)
  min := lastValue? a.items "min"
  max := lastValue? a.items "max"
  range := lastValue? a.items "range"
  length := lastValue? a.items "length"
  pattern := lastValue? a.items "pattern"

theorem getLast?_bodyLexemes (a : Attribute) :
    a.bodyLexemes.getLast? ≠ some (.mark .semicolon) := by
  rw [bodyLexemes, ← List.append_assoc]
  refine getLast?_ne_semicolon (List.not_mem_cons_of_ne_of_not_mem nofun fun h => ?_)
  obtain ⟨item, -, hmem⟩ := List.mem_flatMap.mp h
  exact item.semicolon_not_mem hmem

/-- Items with pairwise different keys mean the same attribute in any order. -/
theorem meaning_perm (a : Attribute) {items : List Item} (h : a.items.Perm items)
    (hkeys : (a.items.filterMap Item.key?).Nodup) :
    meaning { a with items := items } = a.meaning := by
  simp only [meaning, lastValue?_perm h hkeys, h.mem_iff]

end Attribute

end Source

open Source

namespace Attribute

/-! ## 2. Written attributes are read -/

theorem ofConstraints_items (a : Source.Attribute) :
    ofConstraints a.visibility a.type.meaning a.name (a.items.filterMap Item.constraint?)
      = a.meaning := by
  simp only [ofConstraints, isFlagged_items, lastValue?_items]
  rfl

/-- **What is written is read as the attribute that is meant.** -/
theorem read?_written (a : Source.Attribute) {run : List Token}
    (h : run.map Token.lexeme = a.bodyLexemes) : read? run = .ok a.meaning := by
  obtain ⟨front, rest, rfl, hfront, hrest⟩ := List.map_eq_append_iff.mp h
  obtain ⟨typed, rest, rfl, htyped, hrest⟩ := List.map_eq_append_iff.mp hrest
  obtain ⟨named, trailer, rfl, hnamed, htrailer⟩ := List.map_eq_cons_iff.mp hrest
  have hvisibility : readVisibility (front ++ (typed ++ named :: trailer))
      = (a.visibility, typed ++ named :: trailer) := by
    refine readVisibility_written hfront (by simp) fun hnone t ht => ?_
    refine word?_bind_read?_eq_none fun w hw => a.type_start hnone w ?_
    have htype : t ∈ typed.head? := by
      cases typed with
      | nil => exact absurd htyped.symm a.type.lexemes_ne_nil
      | cons u typed => exact ht
    rw [head?_lexemes htyped t htype, hw]
  have htype : TypeRef.read? (typed ++ named :: trailer)
      = some (a.type.meaning, named :: trailer) := by
    refine TypeRef.read?_eq_some_iff.mpr ⟨a.type, typed, rfl, htyped, a.type_depth, ?_, rfl⟩
    exact TypeTerm.endsBefore_of_head (by simp [Token.is, hnamed])
  have hname : named.word? = some a.name := by simp [Token.word?, hnamed]
  simp only [read?, hvisibility, htype, hname, readAll_items htrailer, ofConstraints_items]

/-- A written line is read as the attribute that is meant. -/
theorem ofLine_of_lexemes (a : Source.Attribute) {line : List Token}
    (h : line.map Token.lexeme = a.lexemes) : ofLine line = .matched a.meaning := by
  obtain ⟨run, terminators, rfl, hrun, hterminators⟩ := List.map_eq_append_iff.mp h
  rw [ofLine, withoutTerminators_spelled (hrun ▸ a.getLast?_bodyLexemes) hterminators,
    read?_written a hrun]
  rfl

/-- **A written line is read as the attribute that is meant**: with its visibility, its type and its
name, with a constraint for each word that stands there as an item of its own, and with the last
value of each key that is not empty.  If no two items have the same key, the line is read so
whatever order the items have. -/
theorem ofLine_writtenAttribute (a : Source.Attribute) {line : List Token}
    (h : line.map Token.lexeme = a.lexemes) :
    ofLine line = .matched a.meaning
      ∧ ∀ (items : List Item) (line' : List Token), a.items.Perm items →
        (a.items.filterMap Item.key?).Nodup →
        line'.map Token.lexeme = Source.Attribute.lexemes { a with items := items } →
        ofLine line' = ofLine line := by
  refine ⟨ofLine_of_lexemes a h, fun items line' hperm hkeys h' => ?_⟩
  rw [ofLine_of_lexemes _ h', a.meaning_perm hperm hkeys, ofLine_of_lexemes a h]

end Attribute

namespace Source

/-- `protected Map<@Key,Collection<int>> limits required !nullable max="10" unique=email min=5;;`,
and with the value of `max` stated twice more. -/
def sampleAttribute (isRepeated : Bool) : Attribute where
  visibility := some .protected
  type := .map false (.name true "Key")
    (.wrapper false "Collection" (by decide) (.name false "int"))
  name := "limits"
  items := [.bare "required", .negated "nullable", .assigned "max" (.string "10"),
      .assigned "unique" (.word "email"), .assigned "min" (.number "5")]
    ++ if isRepeated then [.assigned "max" (.word "key"), .assigned "max" (.string "")] else []
  terminators := 2
  type_depth := by decide
  type_start := nofun

end Source

/-- A value that is empty does not count, and neither does a word that is taken away, a key, or a
value; items with different keys may stand the other way about. -/
theorem Attribute.ofLine_writtenAttribute_sample :
    ofLine (lex ("protected Map<@Key,Collection<int>> limits required !nullable max=\"10\" "
        ++ "unique=email min=5 max=key max=\"\";;").toList)
      = .matched
          { name := "limits"
            type := .map (.named "Key") (.collection .collection (.primitive .int))
            visibility := some .protected
            required := true
            min := some "5"
            max := some "key" }
      ∧ ofLine (lex ("protected Map<@Key,Collection<int>> limits min=5 unique=email max=\"10\" "
          ++ "!nullable required;;").toList)
        = ofLine (lex ("protected Map<@Key,Collection<int>> limits required !nullable max=\"10\" "
          ++ "unique=email min=5;;").toList) := by
  constructor
  · refine (ofLine_writtenAttribute (sampleAttribute true) ?_).1.trans ?_
    · decide +kernel
    · decide +kernel
  · exact (ofLine_writtenAttribute (sampleAttribute false) (by decide +kernel)).2
      (sampleAttribute false).items.reverse _ (List.reverse_perm _).symm (by decide +kernel)
      (by decide +kernel)

end ContextAtlas
