/-
# Looking things up in a model

Names need not be unique: a look-up by name finds the first match in the order of the document. An
unknown name finds nothing, and lists under it are empty.
-/
import ContextAtlas.Model
import ContextAtlas.Text.Ranges

namespace ContextAtlas

namespace Model

/-- The first bounded context of a name. -/
def context? (m : Model) (name : String) : Option BoundedContext :=
  m.contexts.find? (·.name == name)

/-- The aggregates of a bounded context. -/
def aggregates (m : Model) (context : String) : List Aggregate :=
  match m.context? context with
  | some c => c.aggregates
  | none => []

/-- The first aggregate of a name in a bounded context. -/
def aggregate? (m : Model) (context aggregate : String) : Option Aggregate :=
  (m.aggregates context).find? (·.name == aggregate)

/-- A list of an aggregate, empty when there is no such aggregate. -/
def listOf {α : Type} (m : Model) (context aggregate : String) (list : Aggregate → List α) :
    List α :=
  match m.aggregate? context aggregate with
  | some a => list a
  | none => []

/-- The entities of an aggregate. -/
def entities (m : Model) (context aggregate : String) : List Entity :=
  m.listOf context aggregate Aggregate.entities

/-- The value objects of an aggregate. -/
def valueObjects (m : Model) (context aggregate : String) : List ValueObject :=
  m.listOf context aggregate Aggregate.valueObjects

/-- The commands of an aggregate. -/
def commands (m : Model) (context aggregate : String) : List Message :=
  m.listOf context aggregate Aggregate.commands

/-- The events of an aggregate. -/
def events (m : Model) (context aggregate : String) : List Message :=
  m.listOf context aggregate Aggregate.events

/-- The services of an aggregate. -/
def services (m : Model) (context aggregate : String) : List Service :=
  m.listOf context aggregate Aggregate.services

/-- The relationships in which a context takes part, on either side. -/
def relationshipsOf (m : Model) (name : String) : List Relationship :=
  m.relationships.filter fun r => r.participants.1 == name || r.participants.2 == name

/-- The directed relationships in which a context is upstream. -/
def upstreamOf (m : Model) (name : String) : List Relationship :=
  m.relationships.filter fun r => r.directed?.any (·.upstream == name)

/-- The directed relationships in which a context is downstream. -/
def downstreamOf (m : Model) (name : String) : List Relationship :=
  m.relationships.filter fun r => r.directed?.any (·.downstream == name)

end Model

/-- The first entity of an aggregate that is flagged as its root. -/
def Aggregate.root? (a : Aggregate) : Option Entity := a.entities.find? (·.isAggregateRoot)

/-! ## Business rules -/

/-- What a responsibility starts with that is a business rule. -/
def ruleMarker : List Char := "RULE:".toList

/-- The business rule that a responsibility states, without its marker and outer blanks. -/
def businessRule? (responsibility : String) : Option String :=
  if ruleMarker.isPrefixOf responsibility.toList then
    some (String.ofList (Text.trim (responsibility.toList.drop ruleMarker.length)))
  else none

/-- The business rules among some responsibilities. -/
def businessRules (responsibilities : List String) : List String :=
  responsibilities.filterMap businessRule?

end ContextAtlas
