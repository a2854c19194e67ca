/-
# Reading a document

A document is read in a fixed order: the context map, then every bounded context with its
aggregates, then the domains, then the user requirements. Whatever is left out on the way is noted
in the order in which it is found.

* `Noted`: a value together with what was noted while it was read.
* `ContextMap.ofBlock`, `BoundedContext.ofBlock`, ...: one reader for each kind of block.
* `Report.ofText`: the model of a document and the notes.
* `Model.parse`: the model alone; a strict reading refuses a document with a skipped run.
-/
import ContextAtlas.Block.Scan
import ContextAtlas.Comment
import ContextAtlas.Member.Lines
import ContextAtlas.Model
import ContextAtlas.Relationship.Reader

namespace ContextAtlas

/-! ## 1. Notes -/

/-- Something worth telling about a document: a run of tokens that was left out, or how many
context maps stand behind the first. -/
inductive Note where
  | skipped (run : Skipped)
  | extraContextMaps (count : Nat)
deriving DecidableEq

/-- The skipped run that a note tells of. -/
def Note.skipped? : Note → Option Skipped
  | .skipped s => some s
  | .extraContextMaps _ => none

/-- A value and what was noted while it was read, in order. -/
structure Noted (α : Type) where
  value : α
  notes : List Note

/-- The notes on some outcomes. -/
def skipNotes {α : Type} (outcomes : List (Outcome α)) : List Note :=
  (outcomes.filterMap Outcome.skipped?).map Note.skipped

/-- Reads all blocks of a keyword in a run of tokens: first the blocks are found, then each is
read. -/
def readBlocks {α : Type} (keyword : String) (read : Block → Noted α) (ts : List Token) :
    Noted (List α) :=
  let outcomes := scanBlocks keyword false ts
  let blocks := matchedValues outcomes
  { value := blocks.map fun b => (read b).value
    notes := skipNotes outcomes ++ blocks.flatMap fun b => (read b).notes }

/-! ## 2. Domain objects -/

/-- Reads the members of a block. -/
def readMembers (flags : List String) (withOperations : Bool) (b : Block) : Noted Members :=
  let members := Members.ofLines flags withOperations b.lines
  ⟨members, members.skipped.map Note.skipped⟩

/-- Reads an entity. -/
def Entity.ofBlock (b : Block) : Noted Entity :=
  let members := readMembers ["aggregateRoot"] true b
  { value :=
      { name := b.name
        isAbstract := b.isAbstract
        parent := b.header.parent
        isAggregateRoot := members.value.has "aggregateRoot"
        attributes := members.value.attributes
        references := members.value.references
        operations := members.value.operations }
    notes := members.notes }

/-- Reads a value object. -/
def ValueObject.ofBlock (b : Block) : Noted ValueObject :=
  let members := readMembers ["immutable", "persistent"] true b
  { value :=
      { name := b.name
        isAbstract := b.isAbstract
        parent := b.header.parent
        isImmutable := members.value.has "immutable"
        isPersistent := members.value.has "persistent"
        attributes := members.value.attributes
        references := members.value.references
        operations := members.value.operations }
    notes := members.notes }

/-- Reads a command or an event. -/
def Message.ofBlock (b : Block) : Noted Message :=
  let members := readMembers ["persistent"] false b
  { value :=
      { name := b.name
        isAbstract := b.isAbstract
        parent := b.header.parent
        isPersistent := members.value.has "persistent"
        attributes := members.value.attributes
        references := members.value.references }
    notes := members.notes }

/-- Reads a service. -/
def Service.ofBlock (b : Block) : Noted Service :=
  let outcomes := serviceOperations b.lines
  ⟨{ name := b.name, operations := matchedValues outcomes }, skipNotes outcomes⟩

/-! ## 3. Contexts -/

/-- Reads an aggregate. -/
def Aggregate.ofBlock (b : Block) : Noted Aggregate :=
  let own := b.ownTokens
  let entities := readBlocks "Entity" Entity.ofBlock b.body
  let valueObjects := readBlocks "ValueObject" ValueObject.ofBlock b.body
  let services := readBlocks "Service" Service.ofBlock b.body
  let commands := readBlocks "CommandEvent" Message.ofBlock b.body
  let events := readBlocks "DomainEvent" Message.ofBlock b.body
  { value :=
      { name := b.name
        responsibilities := Setting.strings "responsibilities" own
        userRequirements := Setting.values "userRequirements" own
          ++ Setting.values "useCases" own ++ Setting.values "userStories" own
        owner := Setting.first? "owner" own
        knowledgeLevel := Setting.member? KnowledgeLevel "knowledgeLevel" own
        likelihoodForChange := Setting.member? Volatility "likelihoodForChange" own
        contentVolatility := Setting.member? Volatility "contentVolatility" own
        entities := entities.value
        valueObjects := valueObjects.value
        services := services.value
        commands := commands.value
        events := events.value }
    notes := entities.notes ++ valueObjects.notes ++ services.notes ++ commands.notes
      ++ events.notes }

/-- Reads a bounded context. -/
def BoundedContext.ofBlock (b : Block) : Noted BoundedContext :=
  let own := b.ownTokens
  let aggregates := readBlocks "Aggregate" Aggregate.ofBlock b.body
  { value :=
      { name := b.name
        type := Setting.member? BoundedContextType "type" own
        vision := Setting.string? "domainVisionStatement" own
        responsibilities := Setting.strings "responsibilities" own
        technology := Setting.string? "implementationTechnology" own
        knowledgeLevel := Setting.member? KnowledgeLevel "knowledgeLevel" own
        businessModel := Setting.string? "businessModel" own
        evolution := Setting.member? Evolution "evolution" own
        aggregates := aggregates.value }
    notes := aggregates.notes }

/-- Reads a subdomain. -/
def Subdomain.ofBlock (b : Block) : Noted Subdomain :=
  { value :=
      { name := b.name
        type := Setting.member? SubdomainType "type" b.ownTokens
        vision := Setting.string? "domainVisionStatement" b.ownTokens }
    notes := [] }

/-- Reads a domain. -/
def Domain.ofBlock (b : Block) : Noted Domain :=
  let subdomains := readBlocks "Subdomain" Subdomain.ofBlock b.body
  { value :=
      { name := b.name
        vision := Setting.string? "domainVisionStatement" b.ownTokens
        subdomains := subdomains.value }
    notes := subdomains.notes }

/-- Reads a context map. Its settings stand on its own lines, its relationships anywhere in its
body. -/
def ContextMap.ofBlock (b : Block) : Noted ContextMap :=
  let own := b.ownTokens
  let outcomes := readRelationships b.body
  { value :=
      { name := b.name?
        type := Setting.member? ContextMapType "type" own
        state := Setting.member? ContextMapState "state" own
        contexts := Setting.values "contains" own
        relationships := matchedValues outcomes }
    notes := skipNotes outcomes }

/-- Reads the context map of a document, the first of all: a document has at most one. -/
def readContextMap (ts : List Token) : Noted (Option ContextMap) :=
  let outcomes := scanBlocks "ContextMap" true ts
  match matchedValues outcomes with
  | [] => ⟨none, skipNotes outcomes⟩
  | b :: more =>
    let map := ContextMap.ofBlock b
    { value := some map.value
      notes := skipNotes outcomes
        ++ (if more.isEmpty then [] else [.extraContextMaps more.length]) ++ map.notes }

/-! ## 4. Requirements -/

/-- The tokens behind a phrase that has to come first. -/
def afterPhrase? : List String → List Token → Option (List Token)
  | [], ts => some ts
  | _ :: _, [] => none
  | w :: ws, t :: r => if t.isWord w then afterPhrase? ws r else none

/-- Whether a token is an article. -/
def isArticle (t : Token) : Bool := t.isWord "a" || t.isWord "an"

/-- The string behind the first occurrence of a phrase that a string follows; articles between
them are ignored. -/
def stringAfter? (phrase : List String) : List Token → Option String
  | [] => none
  | t :: r =>
    match (afterPhrase? phrase (t :: r)).bind fun rest =>
        (rest.dropWhile isArticle).head?.bind Token.string? with
    | some s => some s
    | none => stringAfter? phrase r

/-- Reads a use case. -/
def UseCase.ofBlock (b : Block) : UseCase :=
  let own := b.ownTokens
  { name := b.name
    actor := Setting.string? "actor" own
    secondaryActors := Setting.strings "secondaryActors" own
    benefit := Setting.string? "benefit" own
    scope := Setting.string? "scope" own
    level := Setting.string? "level" own }

/-- Reads a user story. -/
def UserStory.ofBlock (b : Block) : UserStory where
  name := b.name
  role := stringAfter? ["As"] b.ownTokens
  benefit := stringAfter? ["so", "that"] b.ownTokens

/-- Reads the requirements of a kind, each with the line of its keyword. -/
def readRequirements (keyword : String) (read : Block → UserRequirement) (ts : List Token) :
    Noted (List (Nat × UserRequirement)) :=
  readBlocks keyword (fun b => ⟨(b.line, read b), []⟩) ts

/-- Reads the use cases and user stories of a document in the order of their lines; on one line
the use cases come first. -/
def readUserRequirements (ts : List Token) : Noted (List UserRequirement) :=
  let cases := readRequirements "UseCase" (fun b => .useCase (.ofBlock b)) ts
  let stories := readRequirements "UserStory" (fun b => .userStory (.ofBlock b)) ts
  { value := (cases.value.merge stories.value fun a b => a.1 ≤ b.1).map (·.2)
    notes := cases.notes ++ stories.notes }

/-! ## 5. Documents -/

/-- The model of a document and what was noted while it was read. -/
structure Report where
  model : Model
  notes : List Note
deriving DecidableEq

namespace Report

/-- The runs of tokens that were left out, in the order in which they were found. -/
def skipped (r : Report) : List Skipped := r.notes.filterMap Note.skipped?

/-- Reads a run of tokens as a document. -/
def ofTokens (ts : List Token) : Report :=
  let contextMap := readContextMap ts
  let contexts := readBlocks "BoundedContext" BoundedContext.ofBlock ts
  let domains := readBlocks "Domain" Domain.ofBlock ts
  let requirements := readUserRequirements ts
  { model :=
      { contextMap := contextMap.value
        contexts := contexts.value
        domains := domains.value
        requirements := requirements.value }
    notes := contextMap.notes ++ contexts.notes ++ domains.notes ++ requirements.notes }

/-- Reads a document. -/
def ofText (source : String) : Report := ofTokens (lex (stripComments source.toList))

end Report

/-! ## 6. Strict and lenient reading -/

/-- What a strict reading says about the first run that it cannot read. -/
def Skipped.complaint (s : Skipped) : String :=
  "Line " ++ toString s.line ++ ", column " ++ toString s.column ++ ": " ++ s.reason.message

/-- The model of a document. A strict reading refuses a document with the first skipped run. -/
def Model.parse (source : String) (strict : Bool) : Except Skipped Model :=
  let report := Report.ofText source
  match strict, report.skipped with
  | true, first :: _ => .error first
  | _, _ => .ok report.model

end ContextAtlas
