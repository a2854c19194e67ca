/-
# Reading a document by index

A document is read as a whole from its characters: the lexer, the scans for blocks, and the readers
of their settings, lines and relationships all run by index.  The first of the context maps is
fetched from the list of all, and a strict reading fetches the first of the skipped runs.

Nothing is asked of the document.  Whatever its text, each element that is fetched is there, each
loop ends, and no type reference is read too deep inside of others.

* `linesOf`, `ownTokensOf`: the lines of a block.
* `entityOf`, `aggregateOf`, `contextMapOf`, ...: one reader for each kind of block.
* `reportOf`, `parse`: whole documents.
* `reading_reaches_no_fault`: they give what the readers of lists give, for every document.
-/
import ContextAtlas.Proofs.Indexed.Lexer
import ContextAtlas.Proofs.Indexed.Lines
import ContextAtlas.Proofs.Indexed.Relationship
import ContextAtlas.Report

namespace ContextAtlas.Indexed

/-! ## 1. Blocks -/

section

variable (b : Block)

/-- The lines of a block. -/
def linesOf : Run (List (List Token)) := groupTokens b.ownTokens

/-- The tokens on the lines of a block. -/
def ownTokensOf : Run (List Token) := do
  let lines ← linesOf b
  return lines.flatten

/-- Reads all blocks of a keyword in a run of tokens. -/
def blocksOf {α : Type} (keyword : String) (read : Block → Run (Noted α)) (ts : List Token) :
    Run (Noted (List α)) := do
  let outcomes ← findBlocks keyword false ts
  let found ← (matchedValues outcomes).mapM read
  return ⟨found.map (·.value), skipNotes outcomes ++ found.flatMap (·.notes)⟩

theorem linesOf_eq : linesOf b = .ok b.lines := groupTokens_eq b.ownTokens

theorem ownTokensOf_eq : ownTokensOf b = .ok b.ownTokens := by
  rw [ownTokensOf, linesOf_eq, bind_ok, Block.lines, groupLines, List.flatten_splitBy]
  rfl

theorem blocksOf_eq {α : Type} {keyword : String} {read : Block → Run (Noted α)}
    {reader : Block → Noted α} (h : ∀ b, read b = .ok (reader b)) (ts : List Token) :
    blocksOf keyword read ts = .ok (readBlocks keyword reader ts) := by
  rw [blocksOf, findBlocks_eq, bind_ok, mapM_ok h, bind_ok, readBlocks, List.map_map,
    List.flatMap_map]
  rfl

end

/-! ## 2. Domain objects -/

section

variable (b : Block)

/-- Reads the members of a block. -/
def membersOfBlock (flags : List String) (withOperations : Bool) : Run (Noted Members) := do
  let lines ← linesOf b
  let members ← membersOf flags withOperations lines
  return ⟨members, members.skipped.map Note.skipped⟩

/-- Reads an entity. -/
def entityOf : Run (Noted Entity) := do
  let members ← membersOfBlock b ["aggregateRoot"] true
  return {
    value :=
      { name := b.name
        isAbstract := b.isAbstract
        parent := b.header.parent
        isAggregateRoot := members.value.has "aggregateRoot"
        attributes := members.value.attributes
        references := members.value.references
        operations := members.value.operations }
    notes := members.notes }

/-- Reads a value object. -/
def valueObjectOf : Run (Noted ValueObject) := do
  let members ← membersOfBlock b ["immutable", "persistent"] true
  return {
    value :=
      { name := b.name
        isAbstract := b.isAbstract
        parent := b.header.parent
        isImmutable := members.value.has "immutable"
        isPersistent := members.value.has "persistent"
        attributes := members.value.attributes
        references := members.value.references
        operations := members.value.operations }
    notes := members.notes }

/-- Reads a command or an event. -/
def messageOf : Run (Noted Message) := do
  let members ← membersOfBlock b ["persistent"] false
  return {
    value :=
      { name := b.name
        isAbstract := b.isAbstract
        parent := b.header.parent
        isPersistent := members.value.has "persistent"
        attributes := members.value.attributes
        references := members.value.references }
    notes := members.notes }

/-- Reads a service. -/
def serviceOf : Run (Noted Service) := do
  let lines ← linesOf b
  let outcomes ← serviceOperationsOf lines
  return ⟨{ name := b.name, operations := matchedValues outcomes }, skipNotes outcomes⟩

theorem membersOfBlock_eq (flags : List String) (withOperations : Bool) :
    membersOfBlock b flags withOperations = .ok (readMembers flags withOperations b) := by
  rw [membersOfBlock, linesOf_eq, bind_ok, membersOf_eq]
  rfl

theorem entityOf_eq : entityOf b = .ok (Entity.ofBlock b) := by
  rw [entityOf, membersOfBlock_eq]
  rfl

theorem valueObjectOf_eq : valueObjectOf b = .ok (ValueObject.ofBlock b) := by
  rw [valueObjectOf, membersOfBlock_eq]
  rfl

theorem messageOf_eq : messageOf b = .ok (Message.ofBlock b) := by
  rw [messageOf, membersOfBlock_eq]
  rfl

theorem serviceOf_eq : serviceOf b = .ok (Service.ofBlock b) := by
  rw [serviceOf, linesOf_eq, bind_ok, serviceOperationsOf_eq]
  rfl

end

/-! ## 3. Contexts -/

section

variable (b : Block) (ts : List Token)

/-- Reads an aggregate. -/
def aggregateOf : Run (Noted Aggregate) := do
  let own ← ownTokensOf b
  let entities ← blocksOf "Entity" entityOf b.body
  let valueObjects ← blocksOf "ValueObject" valueObjectOf b.body
  let services ← blocksOf "Service" serviceOf b.body
  let commands ← blocksOf "CommandEvent" messageOf b.body
  let events ← blocksOf "DomainEvent" messageOf b.body
  let responsibilities ← stringsSetting "responsibilities" own
  let requirements ← listSetting "userRequirements" own
  let useCases ← listSetting "useCases" own
  let userStories ← listSetting "userStories" own
  let owner ← firstSetting "owner" own
  let knowledgeLevel ← memberSetting "knowledgeLevel" own KnowledgeLevel
  let likelihoodForChange ← memberSetting "likelihoodForChange" own Volatility
  let contentVolatility ← memberSetting "contentVolatility" own Volatility
  return {
    value :=
      { name := b.name
        responsibilities := responsibilities
        userRequirements := requirements ++ useCases ++ userStories
        owner := owner
        knowledgeLevel := knowledgeLevel
        likelihoodForChange := likelihoodForChange
        contentVolatility := contentVolatility
        entities := entities.value
        valueObjects := valueObjects.value
        services := services.value
        commands := commands.value
        events := events.value }
    notes := entities.notes ++ valueObjects.notes ++ services.notes ++ commands.notes
      ++ events.notes }

/-- Reads a bounded context. -/
def boundedContextOf : Run (Noted BoundedContext) := do
  let own ← ownTokensOf b
  let type ← memberSetting "type" own BoundedContextType
  let vision ← stringSetting "domainVisionStatement" own
  let responsibilities ← stringsSetting "responsibilities" own
  let technology ← stringSetting "implementationTechnology" own
  let knowledgeLevel ← memberSetting "knowledgeLevel" own KnowledgeLevel
  let businessModel ← stringSetting "businessModel" own
  let evolution ← memberSetting "evolution" own Evolution
  let aggregates ← blocksOf "Aggregate" aggregateOf b.body
  return {
    value :=
      { name := b.name
        type := type
        vision := vision
        responsibilities := responsibilities
        technology := technology
        knowledgeLevel := knowledgeLevel
        businessModel := businessModel
        evolution := evolution
        aggregates := aggregates.value }
    notes := aggregates.notes }

/-- Reads a subdomain. -/
def subdomainOf : Run (Noted Subdomain) := do
  let own ← ownTokensOf b
  let type ← memberSetting "type" own SubdomainType
  let vision ← stringSetting "domainVisionStatement" own
  return ⟨{ name := b.name, type := type, vision := vision }, []⟩

/-- Reads a domain. -/
def domainOf : Run (Noted Domain) := do
  let own ← ownTokensOf b
  let subdomains ← blocksOf "Subdomain" subdomainOf b.body
  let vision ← stringSetting "domainVisionStatement" own
  return ⟨{ name := b.name, vision := vision, subdomains := subdomains.value }, subdomains.notes⟩

/-- Reads a context map. -/
def contextMapOf : Run (Noted ContextMap) := do
  let own ← ownTokensOf b
  let outcomes ← relationshipsOf b.body
  let type ← memberSetting "type" own ContextMapType
  let state ← memberSetting "state" own ContextMapState
  let contexts ← listSetting "contains" own
  return {
    value :=
      { name := b.name?
        type := type
        state := state
        contexts := contexts
        relationships := matchedValues outcomes }
    notes := skipNotes outcomes }

/-- Reads the context map of a document, the first of all. -/
def firstContextMap : Run (Noted (Option ContextMap)) := do
  let outcomes ← findBlocks "ContextMap" true ts
  let blocks := matchedValues outcomes
  if blocks.isEmpty then return ⟨none, skipNotes outcomes⟩
  else
    let extra := if 1 < blocks.length then [Note.extraContextMaps (blocks.length - 1)] else []
    let first ← fetch blocks 0
    let map ← contextMapOf first
    return ⟨some map.value, skipNotes outcomes ++ extra ++ map.notes⟩

theorem aggregateOf_eq : aggregateOf b = .ok (Aggregate.ofBlock b) := by
  simp [aggregateOf, ownTokensOf_eq, blocksOf_eq entityOf_eq, blocksOf_eq valueObjectOf_eq,
    blocksOf_eq serviceOf_eq, blocksOf_eq messageOf_eq, stringsSetting_eq, listSetting_eq,
    firstSetting_eq, memberSetting_eq, Aggregate.ofBlock]

theorem boundedContextOf_eq : boundedContextOf b = .ok (BoundedContext.ofBlock b) := by
  simp [boundedContextOf, ownTokensOf_eq, blocksOf_eq aggregateOf_eq, stringSetting_eq,
    stringsSetting_eq, memberSetting_eq, BoundedContext.ofBlock]

theorem subdomainOf_eq : subdomainOf b = .ok (Subdomain.ofBlock b) := by
  simp [subdomainOf, ownTokensOf_eq, stringSetting_eq, memberSetting_eq, Subdomain.ofBlock]

theorem domainOf_eq : domainOf b = .ok (Domain.ofBlock b) := by
  simp [domainOf, ownTokensOf_eq, blocksOf_eq subdomainOf_eq, stringSetting_eq, Domain.ofBlock]

theorem contextMapOf_eq : contextMapOf b = .ok (ContextMap.ofBlock b) := by
  simp [contextMapOf, ownTokensOf_eq, relationshipsOf_eq, memberSetting_eq, listSetting_eq,
    ContextMap.ofBlock]

theorem firstContextMap_eq : firstContextMap ts = .ok (readContextMap ts) := by
  rw [firstContextMap, findBlocks_eq, bind_ok, readContextMap]
  rcases matchedValues (scanBlocks "ContextMap" true ts) with _ | ⟨first, more⟩
  · rfl
  · have hfirst : fetch (first :: more) 0 = .ok first := rfl
    cases more <;> simp [hfirst, contextMapOf_eq]

end

/-! ## 4. Requirements -/

section

variable (b : Block) (ts : List Token)

/-- Reads a use case, with the line of its keyword. -/
def useCaseOf : Run (Noted (Nat × UserRequirement)) := do
  let own ← ownTokensOf b
  let actor ← stringSetting "actor" own
  let secondaryActors ← stringsSetting "secondaryActors" own
  let benefit ← stringSetting "benefit" own
  let scope ← stringSetting "scope" own
  let level ← stringSetting "level" own
  return ⟨(b.line, .useCase
    { name := b.name
      actor := actor
      secondaryActors := secondaryActors
      benefit := benefit
      scope := scope
      level := level }), []⟩

/-- Reads a user story, with the line of its keyword. -/
def userStoryOf : Run (Noted (Nat × UserRequirement)) := do
  let own ← ownTokensOf b
  let role ← stringAfter ["As"] own
  let benefit ← stringAfter ["so", "that"] own
  return ⟨(b.line, .userStory { name := b.name, role := role, benefit := benefit }), []⟩

/-- Reads the use cases and user stories of a document in the order of their lines. -/
def requirementsOf : Run (Noted (List UserRequirement)) := do
  let cases ← blocksOf "UseCase" useCaseOf ts
  let stories ← blocksOf "UserStory" userStoryOf ts
  return {
    value := (cases.value.merge stories.value fun a b => a.1 ≤ b.1).map (·.2)
    notes := cases.notes ++ stories.notes }

theorem useCaseOf_eq : useCaseOf b = .ok ⟨(b.line, .useCase (.ofBlock b)), []⟩ := by
  simp [useCaseOf, ownTokensOf_eq, stringSetting_eq, stringsSetting_eq, UseCase.ofBlock]

theorem userStoryOf_eq : userStoryOf b = .ok ⟨(b.line, .userStory (.ofBlock b)), []⟩ := by
  simp [userStoryOf, ownTokensOf_eq, stringAfter_eq, UserStory.ofBlock]

theorem requirementsOf_eq : requirementsOf ts = .ok (readUserRequirements ts) := by
  rw [requirementsOf, blocksOf_eq useCaseOf_eq, bind_ok, blocksOf_eq userStoryOf_eq, bind_ok]
  rfl

end

/-! ## 5. Documents -/

/-- Reads a document. -/
def reportOf (source : String) : Run Report := do
  let ts ← lexText (stripComments source.toList)
  let contextMap ← firstContextMap ts
  let contexts ← blocksOf "BoundedContext" boundedContextOf ts
  let domains ← blocksOf "Domain" domainOf ts
  let requirements ← requirementsOf ts
  return {
    model :=
      { contextMap := contextMap.value
        contexts := contexts.value
        domains := domains.value
        requirements := requirements.value }
    notes := contextMap.notes ++ contexts.notes ++ domains.notes ++ requirements.notes }

/-- The model of a document.  A strict reading refuses a document with the first skipped run. -/
def parse (source : String) (strict : Bool) : Run (Except Skipped Model) := do
  let report ← reportOf source
  if strict && !report.skipped.isEmpty then
    let first ← fetch report.skipped 0
    return .error first
  else return .ok report.model

theorem reportOf_eq (source : String) : reportOf source = .ok (Report.ofText source) := by
  simp [reportOf, lexText_eq, firstContextMap_eq, blocksOf_eq boundedContextOf_eq,
    blocksOf_eq domainOf_eq, requirementsOf_eq, Report.ofText, Report.ofTokens]

theorem parse_eq (source : String) (strict : Bool) :
    parse source strict = .ok (Model.parse source strict) := by
  rw [parse, reportOf_eq, bind_ok]
  unfold Model.parse
  cases strict with
  | false => rfl
  | true =>
    rcases hskipped : (Report.ofText source).skipped with _ | ⟨first, more⟩
    · simp [hskipped]
    · simp [hskipped, fetch]

/-- **No document ends its reading in a fault.**  Every element that is fetched is there and every
loop ends, so that a report is always made and a lenient reading always gives its model.  A type
reference is never read more than one level deeper than `maxTypeDepth`, whatever the tokens are. -/
theorem reading_reaches_no_fault (source : String) :
    reportOf source = .ok (Report.ofText source)
      ∧ parse source false = .ok (.ok (Report.ofText source).model)
      ∧ maxTypeDepth + 1 = 65
      ∧ ∀ ts i, ∃ found, typeRef ts i 0 = .ok found :=
  ⟨reportOf_eq source, parse_eq source false, rfl, fun _ _ =>
    exists_ok_of_reads (typeRef_of_drop rfl (Nat.zero_le _))⟩

end ContextAtlas.Indexed
