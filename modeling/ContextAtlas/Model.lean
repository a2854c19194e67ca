/-
# The model of a document

What a context-mapping document says: a context map, bounded contexts with their aggregates,
domains with their subdomains, and user requirements. A model is a plain tree; it holds no
positions, so two documents that differ in layout alone have equal models.
-/
import ContextAtlas.Member
import ContextAtlas.Relationship

namespace ContextAtlas

/-! ## 1. Vocabularies -/

/-- What a bounded context is. -/
inductive BoundedContextType where
  | feature
  | application
  | system
  | team
deriving DecidableEq

instance : Spelled BoundedContextType where
  all := [.feature, .application, .system, .team]
  spell
    | .feature => "FEATURE"
    | .application => "APPLICATION"
    | .system => "SYSTEM"
    | .team => "TEAM"
  find_spell := by intro a; cases a <;> rfl

/-- How abstract the knowledge in a context or aggregate is. -/
inductive KnowledgeLevel where
  | metaLevel
  | concrete
deriving DecidableEq

instance : Spelled KnowledgeLevel where
  all := [.metaLevel, .concrete]
  spell
    | .metaLevel => "META"
    | .concrete => "CONCRETE"
  find_spell := by intro a; cases a <;> rfl

/-- How far a bounded context has evolved. -/
inductive Evolution where
  | genesis
  | customBuilt
  | product
  | commodity
deriving DecidableEq

instance : Spelled Evolution where
  all := [.genesis, .customBuilt, .product, .commodity]
  spell
    | .genesis => "GENESIS"
    | .customBuilt => "CUSTOM_BUILT"
    | .product => "PRODUCT"
    | .commodity => "COMMODITY"
  find_spell := by intro a; cases a <;> rfl

/-- How often something changes. -/
inductive Volatility where
  | normal
  | rarely
  | often
deriving DecidableEq

instance : Spelled Volatility where
  all := [.normal, .rarely, .often]
  spell
    | .normal => "NORMAL"
    | .rarely => "RARELY"
    | .often => "OFTEN"
  find_spell := by intro a; cases a <;> rfl

/-- What a subdomain is to its domain. -/
inductive SubdomainType where
  | core
  | supporting
  | generic
deriving DecidableEq

instance : Spelled SubdomainType where
  all := [.core, .supporting, .generic]
  spell
    | .core => "CORE_DOMAIN"
    | .supporting => "SUPPORTING_DOMAIN"
    | .generic => "GENERIC_SUBDOMAIN"
  find_spell := by intro a; cases a <;> rfl

/-- What a context map shows. -/
inductive ContextMapType where
  | systemLandscape
  | organizational
deriving DecidableEq

instance : Spelled ContextMapType where
  all := [.systemLandscape, .organizational]
  spell
    | .systemLandscape => "SYSTEM_LANDSCAPE"
    | .organizational => "ORGANIZATIONAL"
  find_spell := by intro a; cases a <;> rfl

/-- Whether a context map shows what is or what shall be. -/
inductive ContextMapState where
  | asIs
  | toBe
deriving DecidableEq

instance : Spelled ContextMapState where
  all := [.asIs, .toBe]
  spell
    | .asIs => "AS_IS"
    | .toBe => "TO_BE"
  find_spell := by intro a; cases a <;> rfl

/-! ## 2. Tactical design -/

/-- A domain object with an identity. -/
structure Entity where
  name : String
  isAbstract : Bool := false
  parent : Option String := none
  isAggregateRoot : Bool := false
  attributes : List Attribute := []
  references : List Reference := []
  operations : List Operation := []
deriving DecidableEq

/-- A domain object that is its values. -/
structure ValueObject where
  name : String
  isAbstract : Bool := false
  parent : Option String := none
  isImmutable : Bool := false
  isPersistent : Bool := false
  attributes : List Attribute := []
  references : List Reference := []
  operations : List Operation := []
deriving DecidableEq

/-- A message of an aggregate: a command that asks for a change, or an event that tells of one.
Which of the two it is says the list of the aggregate that holds it. -/
structure Message where
  name : String
  isAbstract : Bool := false
  parent : Option String := none
  isPersistent : Bool := false
  attributes : List Attribute := []
  references : List Reference := []
deriving DecidableEq

/-- A service without a state. -/
structure Service where
  name : String
  operations : List Operation := []
deriving DecidableEq

/-- A boundary of consistency around domain objects. -/
structure Aggregate where
  name : String
  responsibilities : List String := []
  userRequirements : List String := []
  owner : Option String := none
  knowledgeLevel : Option KnowledgeLevel := none
  likelihoodForChange : Option Volatility := none
  contentVolatility : Option Volatility := none
  entities : List Entity := []
  valueObjects : List ValueObject := []
  services : List Service := []
  commands : List Message := []
  events : List Message := []
deriving DecidableEq

/-! ## 3. Strategic design -/

/-- A strategic boundary around aggregates. -/
structure BoundedContext where
  name : String
  type : Option BoundedContextType := none
  vision : Option String := none
  responsibilities : List String := []
  technology : Option String := none
  knowledgeLevel : Option KnowledgeLevel := none
  businessModel : Option String := none
  evolution : Option Evolution := none
  aggregates : List Aggregate := []
deriving DecidableEq

/-- A part of a domain. -/
structure Subdomain where
  name : String
  type : Option SubdomainType := none
  vision : Option String := none
deriving DecidableEq

/-- A part of the problem space. -/
structure Domain where
  name : String
  vision : Option String := none
  subdomains : List Subdomain := []
deriving DecidableEq

/-- Which contexts there are and how they relate. -/
structure ContextMap where
  name : Option String := none
  type : Option ContextMapType := none
  state : Option ContextMapState := none
  contexts : List String := []
  relationships : List Relationship := []
deriving DecidableEq

/-! ## 4. Requirements -/

/-- A use case. -/
structure UseCase where
  name : String
  actor : Option String := none
  secondaryActors : List String := []
  benefit : Option String := none
  scope : Option String := none
  level : Option String := none
deriving DecidableEq

/-- A user story. -/
structure UserStory where
  name : String
  role : Option String := none
  benefit : Option String := none
deriving DecidableEq

/-- A requirement of one of the two kinds. -/
inductive UserRequirement where
  | useCase (useCase : UseCase)
  | userStory (story : UserStory)
deriving DecidableEq

/-! ## 5. Models -/

/-- What a whole document says. -/
structure Model where
  contextMap : Option ContextMap := none
  contexts : List BoundedContext := []
  domains : List Domain := []
  requirements : List UserRequirement := []
deriving DecidableEq

/-- The relationships of a model; without a context map there are none. -/
def Model.relationships (m : Model) : List Relationship :=
  match m.contextMap with
  | some map => map.relationships
  | none => []

end ContextAtlas
