/-
# Models as JSON values

Every part of a model is an object with one field for each thing it says, in a fixed order; what
is not said is null or an empty list, and no field is left out. Members of closed vocabularies are
written as they are spelled. The variants of a type reference carry their tag in the field `kind`,
those of relationships and requirements in the field `type`.
-/
import ContextAtlas.Json.Printer
import ContextAtlas.Model

namespace ContextAtlas

open Json (ofOption ofStrings)

/-! ## 1. Vocabularies -/

/-- A member of a closed vocabulary. -/
def encodeMember {α : Type} [Spelled α] (a : α) : Json := .string (Spelled.spell a)

/-- A member of a closed vocabulary, or null. -/
def encodeMember? {α : Type} [Spelled α] : Option α → Json
  | some a => encodeMember a
  | none => .null

/-- A list of parts. -/
def encodeList {α : Type} (encode : α → Json) (parts : List α) : Json := .array (parts.map encode)

/-- A part, or null. -/
def encodeOption {α : Type} (encode : α → Json) : Option α → Json
  | some a => encode a
  | none => .null

/-! ## 2. Members -/

/-- A type reference. -/
def TypeRef.encode : TypeRef → Json
  | primitive p => .object [("kind", .string "primitive"), ("primitive", encodeMember p)]
  | collection c e =>
    .object [("kind", .string "collection"), ("collection", encodeMember c),
      ("element_type", e.encode)]
  | map k v =>
    .object [("kind", .string "map"), ("key_type", k.encode), ("value_type", v.encode)]
  | named n => .object [("kind", .string "named"), ("name", .string n)]

/-- An attribute. -/
def Attribute.encode (a : Attribute) : Json :=
  .object
    [("name", .string a.name),
      ("type", a.type.encode),
      ("visibility", encodeMember? a.visibility),
      ("key", .bool a.key),
      ("required", .bool a.required),
      ("nullable", .bool a.nullable),
      ("unique", .bool a.unique),
      ("email", .bool a.email),
      ("past", .bool a.past),
      ("future", .bool a.future),
      ("not_empty", .bool a.notEmpty),
      ("not_blank", .bool a.notBlank),
      ("min", ofOption a.min),
      ("max", ofOption a.max),
      ("range", ofOption a.range),
      ("length", ofOption a.length),
      ("pattern", ofOption a.pattern)]

/-- A reference. -/
def Reference.encode (r : Reference) : Json :=
  .object
    [("name", .string r.name),
      ("domain_object_type", .string r.target),
      ("collection_type", encodeMember? r.wrapper),
      ("visibility", encodeMember? r.visibility),
      ("required", .bool r.required),
      ("nullable", .bool r.nullable),
      ("cascade", ofOption r.cascade),
      ("opposite", ofOption r.opposite)]

/-- A parameter. -/
def Parameter.encode (p : Parameter) : Json :=
  .object [("name", .string p.name), ("type", p.type.encode)]

/-- A state transition. -/
def StateTransition.encode (t : StateTransition) : Json :=
  .object
    [("from_states", encodeOption ofStrings t.sources),
      ("to_states", ofStrings t.targets),
      ("is_exclusive", .bool t.isExclusive)]

/-- An operation. -/
def Operation.encode (o : Operation) : Json :=
  .object
    [("name", .string o.name),
      ("return_type", o.returnType.encode),
      ("parameters", encodeList Parameter.encode o.parameters),
      ("visibility", encodeMember? o.visibility),
      ("is_read_only", .bool o.isReadOnly),
      ("state_transition", encodeOption StateTransition.encode o.transition)]

/-! ## 3. Relationships -/

/-- A symmetric relationship of a kind. -/
def Symmetric.encode (tag : String) (t : Symmetric) : Json :=
  .object
    [("type", .string tag),
      ("participant1", .string t.first),
      ("participant2", .string t.second),
      ("name", ofOption t.name),
      ("implementation_technology", ofOption t.technology)]

/-- A directed relationship of a kind. -/
def Directed.encode (tag : String) (t : Directed) : Json :=
  .object
    [("type", .string tag),
      ("upstream", .string t.upstream),
      ("downstream", .string t.downstream),
      ("upstream_roles", encodeList encodeMember t.upstreamRoles),
      ("downstream_roles", encodeList encodeMember t.downstreamRoles),
      ("exposed_aggregates", ofStrings t.exposedAggregates),
      ("downstream_rights", encodeMember? t.rights),
      ("name", ofOption t.name),
      ("implementation_technology", ofOption t.technology)]

/-- A relationship. -/
def Relationship.encode : Relationship → Json
  | partnership t => t.encode "Partnership"
  | sharedKernel t => t.encode "SharedKernel"
  | upstreamDownstream t => t.encode "UpstreamDownstream"
  | customerSupplier t => t.encode "CustomerSupplier"

/-! ## 4. Tactical design -/

/-- An entity. -/
def Entity.encode (e : Entity) : Json :=
  .object
    [("name", .string e.name),
      ("is_abstract", .bool e.isAbstract),
      ("extends", ofOption e.parent),
      ("is_aggregate_root", .bool e.isAggregateRoot),
      ("attributes", encodeList Attribute.encode e.attributes),
      ("references", encodeList Reference.encode e.references),
      ("operations", encodeList Operation.encode e.operations)]

/-- A value object. -/
def ValueObject.encode (v : ValueObject) : Json :=
  .object
    [("name", .string v.name),
      ("is_abstract", .bool v.isAbstract),
      ("extends", ofOption v.parent),
      ("is_immutable", .bool v.isImmutable),
      ("is_persistent", .bool v.isPersistent),
      ("attributes", encodeList Attribute.encode v.attributes),
      ("references", encodeList Reference.encode v.references),
      ("operations", encodeList Operation.encode v.operations)]

/-- A command or an event. -/
def Message.encode (m : Message) : Json :=
  .object
    [("name", .string m.name),
      ("is_abstract", .bool m.isAbstract),
      ("extends", ofOption m.parent),
      ("is_persistent", .bool m.isPersistent),
      ("attributes", encodeList Attribute.encode m.attributes),
      ("references", encodeList Reference.encode m.references)]

/-- A service. -/
def Service.encode (s : Service) : Json :=
  .object
    [("name", .string s.name), ("operations", encodeList Operation.encode s.operations)]

/-- An aggregate. -/
def Aggregate.encode (a : Aggregate) : Json :=
  .object
    [("name", .string a.name),
      ("responsibilities", ofStrings a.responsibilities),
      ("user_requirements", ofStrings a.userRequirements),
      ("owner", ofOption a.owner),
      ("knowledge_level", encodeMember? a.knowledgeLevel),
      ("likelihood_for_change", encodeMember? a.likelihoodForChange),
      ("content_volatility", encodeMember? a.contentVolatility),
      ("entities", encodeList Entity.encode a.entities),
      ("value_objects", encodeList ValueObject.encode a.valueObjects),
      ("services", encodeList Service.encode a.services),
      ("commands", encodeList Message.encode a.commands),
      ("events", encodeList Message.encode a.events)]

/-! ## 5. Strategic design -/

/-- A bounded context. -/
def BoundedContext.encode (c : BoundedContext) : Json :=
  .object
    [("name", .string c.name),
      ("type", encodeMember? c.type),
      ("domain_vision_statement", ofOption c.vision),
      ("responsibilities", ofStrings c.responsibilities),
      ("implementation_technology", ofOption c.technology),
      ("knowledge_level", encodeMember? c.knowledgeLevel),
      ("business_model", ofOption c.businessModel),
      ("evolution", encodeMember? c.evolution),
      ("aggregates", encodeList Aggregate.encode c.aggregates)]

/-- A subdomain. -/
def Subdomain.encode (s : Subdomain) : Json :=
  .object
    [("name", .string s.name),
      ("type", encodeMember? s.type),
      ("domain_vision_statement", ofOption s.vision)]

/-- A domain. -/
def Domain.encode (d : Domain) : Json :=
  .object
    [("name", .string d.name),
      ("domain_vision_statement", ofOption d.vision),
      ("subdomains", encodeList Subdomain.encode d.subdomains)]

/-- A context map. -/
def ContextMap.encode (m : ContextMap) : Json :=
  .object
    [("name", ofOption m.name),
      ("type", encodeMember? m.type),
      ("state", encodeMember? m.state),
      ("bounded_contexts", ofStrings m.contexts),
      ("relationships", encodeList Relationship.encode m.relationships)]

/-! ## 6. Requirements and models -/

/-- A use case. -/
def UseCase.encode (u : UseCase) : Json :=
  .object
    [("type", .string "UseCase"),
      ("name", .string u.name),
      ("actor", ofOption u.actor),
      ("secondary_actors", ofStrings u.secondaryActors),
      ("benefit", ofOption u.benefit),
      ("scope", ofOption u.scope),
      ("level", ofOption u.level)]

/-- A user story. -/
def UserStory.encode (s : UserStory) : Json :=
  .object
    [("type", .string "UserStory"),
      ("name", .string s.name),
      ("role", ofOption s.role),
      ("benefit", ofOption s.benefit)]

/-- A requirement. -/
def UserRequirement.encode : UserRequirement → Json
  | useCase u => u.encode
  | userStory s => s.encode

/-- A whole model. -/
def Model.encode (m : Model) : Json :=
  .object
    [("context_map", encodeOption ContextMap.encode m.contextMap),
      ("bounded_contexts", encodeList BoundedContext.encode m.contexts),
      ("domains", encodeList Domain.encode m.domains),
      ("user_requirements", encodeList UserRequirement.encode m.requirements)]

/-- A model as text in a layout. -/
def Model.dump (layout : Json.Layout) (m : Model) : String :=
  String.ofList (Json.render layout m.encode)

end ContextAtlas
