/-
# Relationships

How two bounded contexts relate on a context map. A symmetric relationship, a partnership or a
shared kernel, has two equal participants. In a directed one the downstream context uses what the
upstream context provides; it is a customer-supplier relationship when the upstream context also
serves the needs of the downstream one.
-/
import ContextAtlas.Spelled

namespace ContextAtlas

/-! ## 1. Vocabularies -/

/-- What an upstream context offers. -/
inductive UpstreamRole where
  | publishedLanguage
  | openHostService
deriving DecidableEq

instance : Spelled UpstreamRole where
  all := [.publishedLanguage, .openHostService]
  spell
    | .publishedLanguage => "PUBLISHED_LANGUAGE"
    | .openHostService => "OPEN_HOST_SERVICE"
  find_spell := by intro a; cases a <;> rfl

/-- How a downstream context protects itself. -/
inductive DownstreamRole where
  | anticorruptionLayer
  | conformist
deriving DecidableEq

instance : Spelled DownstreamRole where
  all := [.anticorruptionLayer, .conformist]
  spell
    | .anticorruptionLayer => "ANTICORRUPTION_LAYER"
    | .conformist => "CONFORMIST"
  find_spell := by intro a; cases a <;> rfl

/-- How much a downstream context can say about its upstream context. -/
inductive GovernanceRights where
  | influencer
  | opinionLeader
  | vetoRight
  | decisionMaker
  | monopolist
deriving DecidableEq

instance : Spelled GovernanceRights where
  all := [.influencer, .opinionLeader, .vetoRight, .decisionMaker, .monopolist]
  spell
    | .influencer => "INFLUENCER"
    | .opinionLeader => "OPINION_LEADER"
    | .vetoRight => "VETO_RIGHT"
    | .decisionMaker => "DECISION_MAKER"
    | .monopolist => "MONOPOLIST"
  find_spell := by intro a; cases a <;> rfl

/-! ## 2. Relationships -/

/-- What a symmetric relationship says. -/
structure Symmetric where
  first : String
  second : String
  name : Option String := none
  technology : Option String := none
deriving DecidableEq

/-- What a directed relationship says. -/
structure Directed where
  upstream : String
  downstream : String
  upstreamRoles : List UpstreamRole := []
  downstreamRoles : List DownstreamRole := []
  exposedAggregates : List String := []
  rights : Option GovernanceRights := none
  name : Option String := none
  technology : Option String := none
deriving DecidableEq

/-- A relationship of one of the four kinds. -/
inductive Relationship where
  | partnership (terms : Symmetric)
  | sharedKernel (terms : Symmetric)
  | upstreamDownstream (terms : Directed)
  | customerSupplier (terms : Directed)
deriving DecidableEq

namespace Relationship

/-- The two contexts that a relationship connects: the participants in order, or the upstream
context and then the downstream one. -/
def participants : Relationship → String × String
  | partnership t | sharedKernel t => (t.first, t.second)
  | upstreamDownstream t | customerSupplier t => (t.upstream, t.downstream)

/-- The terms of a directed relationship. -/
def directed? : Relationship → Option Directed
  | partnership _ | sharedKernel _ => none
  | upstreamDownstream t | customerSupplier t => some t

end Relationship

end ContextAtlas
