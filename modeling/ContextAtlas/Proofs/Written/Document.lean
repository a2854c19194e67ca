/-
# Well-formed documents

A tree of bounded contexts, aggregates and domain objects with typed fields, together with the rows
it is written in and the model that it stands for.  Every header, every field and every closing
brace has a row of its own.

* `Source.Name`, `Source.TypeExpr`, `Source.Field`, `Source.Object`, `Source.Aggregate`,
  `Source.Context`: the tree; a name is an identifier that no rule of the language claims;
* `rows` of each: what is written;
* `meaning` of each: what it stands for.
-/
import ContextAtlas.Block.Scan
import ContextAtlas.Model
import ContextAtlas.TypeRef.Reader

namespace ContextAtlas

instance : DecidablePred IsIdentifier := fun s =>
  match hs : s.toList with
  | [] => isFalse fun ⟨c, r, h, _⟩ => by simp [hs] at h
  | c :: r =>
    decidable_of_iff (isWordStart c = true ∧ r.all isWordPart = true)
      ⟨fun ⟨hc, hr⟩ => ⟨c, r, hs, hc, List.all_eq_true.mp hr⟩, fun ⟨d, q, h, hd, hq⟩ => by
        obtain ⟨rfl, rfl⟩ := List.cons.inj (hs.symm.trans h)
        exact ⟨hd, List.all_eq_true.mpr hq⟩⟩

namespace Source

/-! ## 1. Names -/

/-- The keywords that open blocks. -/
def constructKeywords : List String :=
  ["ContextMap", "BoundedContext", "Domain", "Subdomain", "Aggregate", "Entity", "ValueObject",
    "Service", "CommandEvent", "DomainEvent", "UseCase", "UserStory"]

/-- The words that say who may see a member. -/
def visibilityWords : List String := (Spelled.all : List Visibility).map Spelled.spell

theorem read?_eq_none_of_not_mem {w : String} (h : w ∉ visibilityWords) :
    (Spelled.read? w : Option Visibility) = none := by
  rw [Option.eq_none_iff_forall_ne_some]
  rintro v hv
  refine h ?_
  rw [← Spelled.spell_of_read? hv]
  cases v <;> decide

theorem word?_bind_read?_eq_none {t : Token} (h : ∀ w, t.lexeme = .word w → w ∉ visibilityWords) :
    (t.word?.bind Spelled.read? : Option Visibility) = none := by
  rw [Option.bind_eq_none_iff]
  exact fun w hw => read?_eq_none_of_not_mem (h w (Token.lexeme_of_word? hw))

/-- How a visibility is written, if there is one. -/
def visibilityRow (v : Option Visibility) : List Lexeme :=
  (v.map fun v => .word (Spelled.spell v)).toList

/-- The words that name nothing. -/
def reservedWords : List String :=
  constructKeywords ++ clauseWords ++ visibilityWords ++ ["def", "abstract"]

/-- A name: an identifier that is not reserved. -/
structure Name where
  text : String
  isIdentifier : IsIdentifier text
  not_reserved : text ∉ reservedWords

/-! ## 2. Types and fields -/

/-- A type: a name, a name with one argument, or a map.  A name with one argument is no map. -/
inductive TypeExpr where
  | name (n : Name)
  | wrapped (n : Name) (hn : n.text ≠ "Map") (argument : TypeExpr)
  | map (key value : TypeExpr)

namespace TypeExpr

/-- How deep the arguments of a type are nested. -/
def depth : TypeExpr → Nat
  | name _ => 0
  | wrapped _ _ t => t.depth + 1
  | map k v => max k.depth v.depth + 1

/-- How a type is written. -/
def lexemes : TypeExpr → List Lexeme
  | name n => [.word n.text]
  | wrapped n _ t => .word n.text :: .mark .openAngle :: (t.lexemes ++ [.mark .closeAngle])
  | map k v =>
    .word "Map" :: .mark .openAngle
      :: (k.lexemes ++ .mark .comma :: (v.lexemes ++ [.mark .closeAngle]))

/-- The type that is meant. -/
def meaning : TypeExpr → TypeRef
  | name n => .ofName n.text
  | wrapped n _ t => .ofWrapper n.text t.meaning
  | map k v => .map k.meaning v.meaning

end TypeExpr

/-- The constraints without a value. -/
inductive Flag where
  | key
  | required
  | nullable
  | unique
  | email
  | past
  | future
  | notEmpty
  | notBlank
deriving DecidableEq

instance : Spelled Flag where
  all := [.key, .required, .nullable, .unique, .email, .past, .future, .notEmpty, .notBlank]
  spell
    | .key => "key"
    | .required => "required"
    | .nullable => "nullable"
    | .unique => "unique"
    | .email => "email"
    | .past => "past"
    | .future => "future"
    | .notEmpty => "notEmpty"
    | .notBlank => "notBlank"
  find_spell := by intro a; cases a <;> rfl

/-- A field of a domain object, with its constraints as they are written. -/
structure Field where
  type : TypeExpr
  depth_le : type.depth ≤ maxTypeDepth
  name : Name
  flags : List Flag

namespace Field

/-- How a field is written. -/
def row (f : Field) : List Lexeme :=
  f.type.lexemes ++ .word f.name.text :: f.flags.map fun x => .word (Spelled.spell x)

/-- The attribute that is meant. -/
def meaning (f : Field) : Attribute where
  name := f.name.text
  type := f.type.meaning
  key := f.flags.contains .key
  required := f.flags.contains .required
  nullable := f.flags.contains .nullable
  unique := f.flags.contains .unique
  email := f.flags.contains .email
  past := f.flags.contains .past
  future := f.flags.contains .future
  notEmpty := f.flags.contains .notEmpty
  notBlank := f.flags.contains .notBlank

end Field

/-! ## 3. Blocks -/

/-- The clause that names the parent of a block. -/
def extendsClause : Option Name → List Lexeme
  | none => []
  | some p => [.word "extends", .mark .sigil, .word p.text]

/-- A header in front of its brace. -/
def headerWords (isAbstract : Bool) (keyword : String) (name : Name) (parent : Option Name) :
    List Lexeme :=
  (if isAbstract then [.word "abstract"] else [])
    ++ .word keyword :: .word name.text :: extendsClause parent

/-- The line of a header. -/
def headerRow (isAbstract : Bool) (keyword : String) (name : Name) (parent : Option Name) :
    List Lexeme :=
  headerWords isAbstract keyword name parent ++ [.mark .openBrace]

/-- The lines of a block: its header, what stands in it, and the closing brace. -/
def blockRows (header : List Lexeme) (inner : List (List Lexeme)) : List (List Lexeme) :=
  header :: (inner ++ [[.mark .closeBrace]])

/-- The kinds of domain objects. -/
inductive Kind where
  | entity
  | valueObject
  | command
  | event
deriving DecidableEq

instance : Spelled Kind where
  all := [.entity, .valueObject, .command, .event]
  spell
    | .entity => "Entity"
    | .valueObject => "ValueObject"
    | .command => "CommandEvent"
    | .event => "DomainEvent"
  find_spell := by intro a; cases a <;> rfl

/-- A domain object. -/
structure Object where
  kind : Kind
  isAbstract : Bool
  name : Name
  parent : Option Name
  fields : List Field

/-- An aggregate with its domain objects in any order. -/
structure Aggregate where
  name : Name
  objects : List Object

/-- A bounded context. -/
structure Context where
  name : Name
  aggregates : List Aggregate

namespace Object

def rows (o : Object) : List (List Lexeme) :=
  blockRows (headerRow o.isAbstract (Spelled.spell o.kind) o.name o.parent) (o.fields.map Field.row)

/-- The entity that is meant. -/
def entity (o : Object) : Entity where
  name := o.name.text
  isAbstract := o.isAbstract
  parent := o.parent.map Name.text
  attributes := o.fields.map Field.meaning

/-- The value object that is meant. -/
def valueObject (o : Object) : ValueObject where
  name := o.name.text
  isAbstract := o.isAbstract
  parent := o.parent.map Name.text
  attributes := o.fields.map Field.meaning

/-- The command or event that is meant. -/
def message (o : Object) : Message where
  name := o.name.text
  isAbstract := o.isAbstract
  parent := o.parent.map Name.text
  attributes := o.fields.map Field.meaning

end Object

namespace Aggregate

def rows (a : Aggregate) : List (List Lexeme) :=
  blockRows (headerRow false "Aggregate" a.name none) (a.objects.flatMap Object.rows)

/-- The objects of a kind, in order. -/
def ofKind (a : Aggregate) (k : Kind) : List Object := a.objects.filter fun o => o.kind = k

/-- The aggregate that is meant: every object under its kind. -/
def meaning (a : Aggregate) : ContextAtlas.Aggregate where
  name := a.name.text
  entities := (a.ofKind .entity).map Object.entity
  valueObjects := (a.ofKind .valueObject).map Object.valueObject
  commands := (a.ofKind .command).map Object.message
  events := (a.ofKind .event).map Object.message

end Aggregate

namespace Context

def rows (c : Context) : List (List Lexeme) :=
  blockRows (headerRow false "BoundedContext" c.name none) (c.aggregates.flatMap Aggregate.rows)

/-- The bounded context that is meant. -/
def meaning (c : Context) : BoundedContext where
  name := c.name.text
  aggregates := c.aggregates.map Aggregate.meaning

end Context

end Source

end ContextAtlas
