/-
# How deep the types of a model nest

The arguments of a type reference nest, and a document nests them at most `maxTypeDepth` levels
deep: what nests deeper is not read.  A model that is put together by other means knows no such
limit.

* `TypeRef.depth`: how many levels the arguments of a type nest;
* `Model.typeRefs`: every type that a model states, those of attributes, parameters and results;
* `Shallow`: types that nest no deeper than a document can;
* `Model.WellShaped.shallow`: the types of a model that a text can state are shallow;
* `Report.shallow_ofText`: so are those that it does state.
-/
import ContextAtlas.Proofs.Shape.Report

namespace ContextAtlas

/-! ## 1. The types of a model -/

/-- How many levels the arguments of a type reference nest. -/
def TypeRef.depth : TypeRef → Nat
  | primitive _ => 0
  | collection _ e => e.depth + 1
  | map k v => max k.depth v.depth + 1
  | named _ => 0

/-- The types that an operation states. -/
def Operation.typeRefs (o : Operation) : List TypeRef :=
  o.returnType :: o.parameters.map Parameter.type

/-- The types that an entity states. -/
def Entity.typeRefs (e : Entity) : List TypeRef :=
  e.attributes.map Attribute.type ++ e.operations.flatMap Operation.typeRefs

/-- The types that a value object states. -/
def ValueObject.typeRefs (v : ValueObject) : List TypeRef :=
  v.attributes.map Attribute.type ++ v.operations.flatMap Operation.typeRefs

/-- The types that a message states. -/
def Message.typeRefs (m : Message) : List TypeRef := m.attributes.map Attribute.type

/-- The types that a service states. -/
def Service.typeRefs (s : Service) : List TypeRef := s.operations.flatMap Operation.typeRefs

/-- The types that an aggregate states. -/
def Aggregate.typeRefs (a : Aggregate) : List TypeRef :=
  a.entities.flatMap Entity.typeRefs ++ a.valueObjects.flatMap ValueObject.typeRefs
    ++ a.services.flatMap Service.typeRefs ++ a.commands.flatMap Message.typeRefs
    ++ a.events.flatMap Message.typeRefs

/-- The types that a bounded context states. -/
def BoundedContext.typeRefs (c : BoundedContext) : List TypeRef :=
  c.aggregates.flatMap Aggregate.typeRefs

/-- The types that a model states. -/
def Model.typeRefs (m : Model) : List TypeRef := m.contexts.flatMap BoundedContext.typeRefs

/-! ## 2. Shallow types -/

/-- Types that nest no deeper than a document can nest them. -/
def Shallow (types : List TypeRef) : Prop := ∀ t ∈ types, t.depth ≤ maxTypeDepth

instance (types : List TypeRef) : Decidable (Shallow types) :=
  inferInstanceAs (Decidable (∀ t ∈ types, t.depth ≤ maxTypeDepth))

section

variable {α : Type} {t : TypeRef} {types types' : List TypeRef} {f : α → List TypeRef}
  {parts : List α}

@[simp] theorem shallow_cons :
    Shallow (t :: types) ↔ t.depth ≤ maxTypeDepth ∧ Shallow types := by
  simp [Shallow]

@[simp] theorem shallow_append : Shallow (types ++ types') ↔ Shallow types ∧ Shallow types' := by
  simp [Shallow, or_imp, forall_and]

@[simp] theorem shallow_map {g : α → TypeRef} :
    Shallow (parts.map g) ↔ ∀ a ∈ parts, (g a).depth ≤ maxTypeDepth := by
  simp [Shallow]

@[simp] theorem shallow_flatMap : Shallow (parts.flatMap f) ↔ ∀ a ∈ parts, Shallow (f a) := by
  simp only [Shallow, List.mem_flatMap]
  exact ⟨fun h a ha t ht => h t ⟨a, ha, ht⟩, fun h t ⟨a, ha, ht⟩ => h a ha t ht⟩

end

/-! ## 3. Types that a document states -/

theorem TypeRef.NestsWithin.depth_le {n : Nat} {t : TypeRef} (h : t.NestsWithin n) :
    t.depth ≤ n := by
  induction h with
  | primitive => exact Nat.zero_le _
  | name => exact Nat.zero_le _
  | collection _ _ ih => exact Nat.succ_le_succ ih
  | map _ _ ihk ihv => exact Nat.succ_le_succ (Nat.max_le.mpr ⟨ihk, ihv⟩)
  | wrapper => exact Nat.zero_le _

section

variable {attributes : List Attribute} {operations : List Operation}

theorem shallow_attributeTypes (h : ∀ a ∈ attributes, a.WellShaped) :
    Shallow (attributes.map Attribute.type) :=
  shallow_map.mpr fun a ha => (h a ha).type.depth_le

theorem Operation.WellShaped.shallow {o : Operation} (h : o.WellShaped) : Shallow o.typeRefs :=
  shallow_cons.mpr
    ⟨h.returnType.depth_le, shallow_map.mpr fun p hp => (h.parameters p hp).type.depth_le⟩

theorem shallow_operationTypes (h : ∀ o ∈ operations, o.WellShaped) :
    Shallow (operations.flatMap Operation.typeRefs) :=
  shallow_flatMap.mpr fun o ho => (h o ho).shallow

end

theorem Entity.WellShaped.shallow {e : Entity} (h : e.WellShaped) : Shallow e.typeRefs :=
  shallow_append.mpr ⟨shallow_attributeTypes h.attributes, shallow_operationTypes h.operations⟩

theorem ValueObject.WellShaped.shallow {v : ValueObject} (h : v.WellShaped) : Shallow v.typeRefs :=
  shallow_append.mpr ⟨shallow_attributeTypes h.attributes, shallow_operationTypes h.operations⟩

theorem Message.WellShaped.shallow {m : Message} (h : m.WellShaped) : Shallow m.typeRefs :=
  shallow_attributeTypes h.attributes

theorem Service.WellShaped.shallow {s : Service} (h : s.WellShaped) : Shallow s.typeRefs :=
  shallow_operationTypes h.operations

theorem Aggregate.WellShaped.shallow {a : Aggregate} (h : a.WellShaped) : Shallow a.typeRefs := by
  simp only [Aggregate.typeRefs, shallow_append, shallow_flatMap]
  exact ⟨⟨⟨⟨fun e he => (h.entities e he).shallow, fun v hv => (h.valueObjects v hv).shallow⟩,
    fun s hs => (h.services s hs).shallow⟩, fun m hm => (h.commands m hm).shallow⟩,
    fun m hm => (h.events m hm).shallow⟩

theorem BoundedContext.WellShaped.shallow {c : BoundedContext} (h : c.WellShaped) :
    Shallow c.typeRefs :=
  shallow_flatMap.mpr fun a ha => (h.aggregates a ha).shallow

theorem Model.WellShaped.shallow {m : Model} (h : m.WellShaped) : Shallow m.typeRefs :=
  shallow_flatMap.mpr fun c hc => (h.contexts c hc).shallow

/-- **The types that a document states are shallow.** -/
theorem Report.shallow_ofText (source : String) : Shallow (ofText source).model.typeRefs :=
  (wellShaped_ofText source).shallow

end ContextAtlas
