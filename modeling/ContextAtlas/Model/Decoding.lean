/-
# Models from JSON values

The way back from `ContextAtlas.Model.Encoding`. What is expected of a value is what encoding
writes, with some freedom: fields may come in any order, unknown fields are ignored, and a field
that has a default may be left out. Whatever is wrong is told with its place, in the order of the
fields.
-/
import ContextAtlas.Json.Checked
import ContextAtlas.Json.Reader
import ContextAtlas.Model

namespace ContextAtlas

open Json (Check Checked Complaint Fields)

/-- Checks a list of texts. -/
def checkTexts : Check (List String) := Check.list Check.text

/-! ## 1. Members -/

/-- Checks a type reference. -/
def TypeRef.check (value : Json) : Checked TypeRef :=
  match value with
  | .object fields =>
    match Json.lastField? "kind" fields with
    | none => .fault .missingTag
    | some (.string tag) =>
      if tag = "primitive" then
        ((Fields.required fields "primitive" Check.member).map TypeRef.primitive).behind
          (.variant "primitive")
      else if tag = "collection" then
        let wrapper := Fields.required fields "collection" Check.member
        let element :=
          match _h : Json.lastField? "element_type" fields with
          | some v => (TypeRef.check v).behind (.field "element_type")
          | none => (Checked.fault .missing).behind (.field "element_type")
        ((wrapper.map TypeRef.collection).apply element).behind (.variant "collection")
      else if tag = "map" then
        let key :=
          match _h : Json.lastField? "key_type" fields with
          | some v => (TypeRef.check v).behind (.field "key_type")
          | none => (Checked.fault .missing).behind (.field "key_type")
        let value :=
          match _h : Json.lastField? "value_type" fields with
          | some v => (TypeRef.check v).behind (.field "value_type")
          | none => (Checked.fault .missing).behind (.field "value_type")
        ((key.map TypeRef.map).apply value).behind (.variant "map")
      else if tag = "named" then
        ((Fields.required fields "name" Check.text).map TypeRef.named).behind (.variant "named")
      else .fault .unknownTag
    | some _ => .fault .unknownTag
  | _ => .fault .notVariant
termination_by sizeOf value
decreasing_by
  all_goals
    have := Json.sizeOf_lt_of_lastField _h
    simp_wf
    omega

/-- Checks an attribute. -/
def Attribute.check : Check Attribute :=
  Check.object fun f =>
    ((Fields.required f "name" Check.text).map Attribute.mk)
      |>.apply (Fields.required f "type" TypeRef.check)
      |>.apply (Fields.optional f "visibility" Check.member)
      |>.apply (Fields.flag f "key")
      |>.apply (Fields.flag f "required")
      |>.apply (Fields.flag f "nullable")
      |>.apply (Fields.flag f "unique")
      |>.apply (Fields.flag f "email")
      |>.apply (Fields.flag f "past")
      |>.apply (Fields.flag f "future")
      |>.apply (Fields.flag f "not_empty")
      |>.apply (Fields.flag f "not_blank")
      |>.apply (Fields.optional f "min" Check.text)
      |>.apply (Fields.optional f "max" Check.text)
      |>.apply (Fields.optional f "range" Check.text)
      |>.apply (Fields.optional f "length" Check.text)
      |>.apply (Fields.optional f "pattern" Check.text)

/-- Checks a reference. -/
def Reference.check : Check Reference :=
  Check.object fun f =>
    ((Fields.required f "name" Check.text).map Reference.mk)
      |>.apply (Fields.required f "domain_object_type" Check.text)
      |>.apply (Fields.optional f "collection_type" Check.member)
      |>.apply (Fields.optional f "visibility" Check.member)
      |>.apply (Fields.flag f "required")
      |>.apply (Fields.flag f "nullable")
      |>.apply (Fields.optional f "cascade" Check.text)
      |>.apply (Fields.optional f "opposite" Check.text)

/-- Checks a parameter. -/
def Parameter.check : Check Parameter :=
  Check.object fun f =>
    ((Fields.required f "name" Check.text).map Parameter.mk)
      |>.apply (Fields.required f "type" TypeRef.check)

/-- Checks a state transition. -/
def StateTransition.check : Check StateTransition :=
  Check.object fun f =>
    ((Fields.optional f "from_states" checkTexts).map StateTransition.mk)
      |>.apply (Fields.list f "to_states" Check.text)
      |>.apply (Fields.flag f "is_exclusive")

/-- Checks an operation. -/
def Operation.check : Check Operation :=
  Check.object fun f =>
    ((Fields.required f "name" Check.text).map Operation.mk)
      |>.apply (Fields.withDefault f "return_type" (.primitive .void) TypeRef.check)
      |>.apply (Fields.list f "parameters" Parameter.check)
      |>.apply (Fields.optional f "visibility" Check.member)
      |>.apply (Fields.flag f "is_read_only")
      |>.apply (Fields.optional f "state_transition" StateTransition.check)

/-! ## 2. Relationships -/

/-- Checks the fields of a symmetric relationship. -/
def Symmetric.checkFields (f : Fields) : Checked Symmetric :=
  ((Fields.required f "participant1" Check.text).map Symmetric.mk)
    |>.apply (Fields.required f "participant2" Check.text)
    |>.apply (Fields.optional f "name" Check.text)
    |>.apply (Fields.optional f "implementation_technology" Check.text)

/-- Checks the fields of a directed relationship. -/
def Directed.checkFields (f : Fields) : Checked Directed :=
  ((Fields.required f "upstream" Check.text).map Directed.mk)
    |>.apply (Fields.required f "downstream" Check.text)
    |>.apply (Fields.list f "upstream_roles" Check.member)
    |>.apply (Fields.list f "downstream_roles" Check.member)
    |>.apply (Fields.list f "exposed_aggregates" Check.text)
    |>.apply (Fields.optional f "downstream_rights" Check.member)
    |>.apply (Fields.optional f "name" Check.text)
    |>.apply (Fields.optional f "implementation_technology" Check.text)

/-- The check of a kind of relationship. -/
def Relationship.variant? (tag : String) :
    Option (Fields → Checked Relationship) :=
  if tag = "Partnership" then some fun f => (Symmetric.checkFields f).map .partnership
  else if tag = "SharedKernel" then some fun f => (Symmetric.checkFields f).map .sharedKernel
  else if tag = "UpstreamDownstream" then
    some fun f => (Directed.checkFields f).map .upstreamDownstream
  else if tag = "CustomerSupplier" then
    some fun f => (Directed.checkFields f).map .customerSupplier
  else none

/-- Checks a relationship. -/
def Relationship.check : Check Relationship := Check.tagged "type" Relationship.variant?

/-! ## 3. Tactical design -/

/-- Checks an entity. -/
def Entity.check : Check Entity :=
  Check.object fun f =>
    ((Fields.required f "name" Check.text).map Entity.mk)
      |>.apply (Fields.flag f "is_abstract")
      |>.apply (Fields.optional f "extends" Check.text)
      |>.apply (Fields.flag f "is_aggregate_root")
      |>.apply (Fields.list f "attributes" Attribute.check)
      |>.apply (Fields.list f "references" Reference.check)
      |>.apply (Fields.list f "operations" Operation.check)

/-- Checks a value object. -/
def ValueObject.check : Check ValueObject :=
  Check.object fun f =>
    ((Fields.required f "name" Check.text).map ValueObject.mk)
      |>.apply (Fields.flag f "is_abstract")
      |>.apply (Fields.optional f "extends" Check.text)
      |>.apply (Fields.flag f "is_immutable")
      |>.apply (Fields.flag f "is_persistent")
      |>.apply (Fields.list f "attributes" Attribute.check)
      |>.apply (Fields.list f "references" Reference.check)
      |>.apply (Fields.list f "operations" Operation.check)

/-- Checks a command or an event. -/
def Message.check : Check Message :=
  Check.object fun f =>
    ((Fields.required f "name" Check.text).map Message.mk)
      |>.apply (Fields.flag f "is_abstract")
      |>.apply (Fields.optional f "extends" Check.text)
      |>.apply (Fields.flag f "is_persistent")
      |>.apply (Fields.list f "attributes" Attribute.check)
      |>.apply (Fields.list f "references" Reference.check)

/-- Checks a service. -/
def Service.check : Check Service :=
  Check.object fun f =>
    ((Fields.required f "name" Check.text).map Service.mk)
      |>.apply (Fields.list f "operations" Operation.check)

/-- Checks an aggregate. -/
def Aggregate.check : Check Aggregate :=
  Check.object fun f =>
    ((Fields.required f "name" Check.text).map Aggregate.mk)
      |>.apply (Fields.list f "responsibilities" Check.text)
      |>.apply (Fields.list f "user_requirements" Check.text)
      |>.apply (Fields.optional f "owner" Check.text)
      |>.apply (Fields.optional f "knowledge_level" Check.member)
      |>.apply (Fields.optional f "likelihood_for_change" Check.member)
      |>.apply (Fields.optional f "content_volatility" Check.member)
      |>.apply (Fields.list f "entities" Entity.check)
      |>.apply (Fields.list f "value_objects" ValueObject.check)
      |>.apply (Fields.list f "services" Service.check)
      |>.apply (Fields.list f "commands" Message.check)
      |>.apply (Fields.list f "events" Message.check)

/-! ## 4. Strategic design -/

/-- Checks a bounded context. -/
def BoundedContext.check : Check BoundedContext :=
  Check.object fun f =>
    ((Fields.required f "name" Check.text).map BoundedContext.mk)
      |>.apply (Fields.optional f "type" Check.member)
      |>.apply (Fields.optional f "domain_vision_statement" Check.text)
      |>.apply (Fields.list f "responsibilities" Check.text)
      |>.apply (Fields.optional f "implementation_technology" Check.text)
      |>.apply (Fields.optional f "knowledge_level" Check.member)
      |>.apply (Fields.optional f "business_model" Check.text)
      |>.apply (Fields.optional f "evolution" Check.member)
      |>.apply (Fields.list f "aggregates" Aggregate.check)

/-- Checks a subdomain. -/
def Subdomain.check : Check Subdomain :=
  Check.object fun f =>
    ((Fields.required f "name" Check.text).map Subdomain.mk)
      |>.apply (Fields.optional f "type" Check.member)
      |>.apply (Fields.optional f "domain_vision_statement" Check.text)

/-- Checks a domain. -/
def Domain.check : Check Domain :=
  Check.object fun f =>
    ((Fields.required f "name" Check.text).map Domain.mk)
      |>.apply (Fields.optional f "domain_vision_statement" Check.text)
      |>.apply (Fields.list f "subdomains" Subdomain.check)

/-- Checks a context map. -/
def ContextMap.check : Check ContextMap :=
  Check.object fun f =>
    ((Fields.optional f "name" Check.text).map ContextMap.mk)
      |>.apply (Fields.optional f "type" Check.member)
      |>.apply (Fields.optional f "state" Check.member)
      |>.apply (Fields.list f "bounded_contexts" Check.text)
      |>.apply (Fields.list f "relationships" Relationship.check)

/-! ## 5. Requirements and models -/

/-- Checks the fields of a use case. -/
def UseCase.checkFields (f : Fields) : Checked UseCase :=
  ((Fields.required f "name" Check.text).map UseCase.mk)
    |>.apply (Fields.optional f "actor" Check.text)
    |>.apply (Fields.list f "secondary_actors" Check.text)
    |>.apply (Fields.optional f "benefit" Check.text)
    |>.apply (Fields.optional f "scope" Check.text)
    |>.apply (Fields.optional f "level" Check.text)

/-- Checks the fields of a user story. -/
def UserStory.checkFields (f : Fields) : Checked UserStory :=
  ((Fields.required f "name" Check.text).map UserStory.mk)
    |>.apply (Fields.optional f "role" Check.text)
    |>.apply (Fields.optional f "benefit" Check.text)

/-- The check of a kind of requirement. -/
def UserRequirement.variant? (tag : String) :
    Option (Fields → Checked UserRequirement) :=
  if tag = "UseCase" then some fun f => (UseCase.checkFields f).map .useCase
  else if tag = "UserStory" then some fun f => (UserStory.checkFields f).map .userStory
  else none

/-- Checks a requirement. -/
def UserRequirement.check : Check UserRequirement :=
  Check.tagged "type" UserRequirement.variant?

/-- Checks a whole model. -/
def Model.check : Check Model :=
  Check.object fun f =>
    ((Fields.optional f "context_map" ContextMap.check).map Model.mk)
      |>.apply (Fields.list f "bounded_contexts" BoundedContext.check)
      |>.apply (Fields.list f "domains" Domain.check)
      |>.apply (Fields.list f "user_requirements" UserRequirement.check)

/-- Reads a text that is a JSON value as what a check makes of it. -/
def loadText {α : Type} (check : Check α) (text : String) : Except (List Complaint) α :=
  match Json.parse? text.toList with
  | none => .error [⟨.notJson, []⟩]
  | some value =>
    match check value with
    | .ok a => .ok a
    | .failed complaints => .error complaints

/-- Loads a model from its text. -/
def Model.load (text : String) : Except (List Complaint) Model := loadText Model.check text

/-- Loads a type reference from its text. -/
def TypeRef.load (text : String) : Except (List Complaint) TypeRef := loadText TypeRef.check text

end ContextAtlas
