/-
# The shape of models

A model that is read from a text holds names that the language can write, at every node: blocks are
found with their name, members are well shaped, and relationships have two participants.  No node is
left with the empty name that stands for a missing one.

* `Block.WellShaped`: what holds of a block that is found in a text;
* `Entity.WellShaped`, ..., `Model.WellShaped`: what holds of each node of a model;
* `Relationship.wellShaped_readRelationshipsFrom`: the walk over the body of a context map;
* `Report.wellShaped_ofText`, `wellShaped_of_parse`: the models of all texts.
-/
import ContextAtlas.Proofs.Shape.Member
import ContextAtlas.Proofs.Skipped.Relationship

namespace ContextAtlas

/-! ## 1. Blocks -/

/-- The names in a run are identifiers. -/
theorem isIdentifier_of_mem_commaRun {ts : List Token} (hts : Legible ts) :
    ∀ w ∈ (commaRun Token.word? ts).1, IsIdentifier w := by
  fun_induction commaRun Token.word? ts with
  | case1 => simp
  | case2 t r ht ih => exact ih (legible_cons.mp hts).2
  | case3 t r ht hi => simp
  | case4 t ht a p s hi ih =>
    obtain ⟨hname, hr⟩ := legible_cons.mp hts
    exact List.forall_mem_cons.mpr ⟨hname a hi, ih (legible_cons.mp hr).2⟩
  | case5 t r ht a hi hr =>
    exact List.forall_mem_singleton.mpr ((legible_cons.mp hts).1 a hi)

theorem isIdentifier_of_readClauses {parent found : Option String} {ts rest : List Token}
    (h : readClauses parent ts = some (found, rest)) (hts : Legible ts)
    (hparent : ∀ w ∈ parent, IsIdentifier w) : ∀ w ∈ found, IsIdentifier w := by
  fun_induction readClauses parent ts with
  | case1 parent =>
    cases h
    exact hparent
  | case2 parent t r hw =>
    cases h
    exact hparent
  | case3 => cases h
  | case4 parent t r w hw hm target names hnames ih =>
    have hr : Legible r := (legible_cons.mp hts).2
    have htarget : IsIdentifier target :=
      isIdentifier_of_mem_commaRun hr target (by rw [hnames]; exact List.mem_cons_self)
    obtain ⟨run, hrun, -⟩ := exists_of_commaRun r
    rw [hrun] at hr
    refine ih h (legible_append.mp hr).2 ?_
    split
    · simpa using htarget
    · exact hparent
  | case5 parent t r w hw hm =>
    cases h
    exact hparent

theorem isIdentifier_of_readBlockName {nameOptional : Bool} {name : Option String}
    {ts rest : List Token} (h : readBlockName nameOptional ts = some (name, rest))
    (hts : Legible ts) :
    Legible rest ∧ (∀ w ∈ name, IsIdentifier w) ∧ (nameOptional = false → name ≠ none) := by
  unfold readBlockName at h
  split at h
  · next w hw =>
    obtain ⟨t, ht, hword⟩ := Option.bind_eq_some_iff.mp hw
    split at h
    · cases h
      refine ⟨hts.of_sublist (List.tail_sublist ts), ?_, by simp⟩
      rintro _ ⟨⟩
      exact hts t (List.mem_of_head? ht) w hword
    · split at h <;> cases h
      exact ⟨hts, by simp, by simp_all⟩
  · split at h <;> cases h
    exact ⟨hts, by simp, by simp_all⟩

/-- A header as a text can state it.  Only where names are optional it may have none. -/
structure Header.WellShaped (nameOptional : Bool) (header : Header) : Prop where
  name : ∀ w ∈ header.name, IsIdentifier w
  named : nameOptional = false → header.name ≠ none
  parent : ∀ w ∈ header.parent, IsIdentifier w

theorem Header.wellShaped_of_read? {nameOptional : Bool} {ts inner : List Token} {header : Header}
    {o : Token} (h : read? nameOptional ts = some (header, o, inner)) (hts : Legible ts) :
    header.WellShaped nameOptional := by
  simp only [read?, Option.bind_eq_bind, Option.bind_eq_some_iff] at h
  obtain ⟨⟨name, afterName⟩, hname, ⟨parent, afterClauses⟩, hclauses, h⟩ := h
  obtain ⟨hafter, hidentifier, hnamed⟩ := isIdentifier_of_readBlockName hname hts
  have hparent := isIdentifier_of_readClauses hclauses hafter (by simp)
  split at h
  · split at h <;> cases h
    exact ⟨hidentifier, hnamed, hparent⟩
  · cases h

/-- A block as it can be found in a text. -/
structure Block.WellShaped (nameOptional : Bool) (b : Block) : Prop where
  header : b.header.WellShaped nameOptional
  body : Legible b.body

namespace Block

theorem wellShaped_of_mem_scanBlocks {keyword : String} {nameOptional : Bool} {ts : List Token}
    {b : Block} (hb : b ∈ matchedValues (scanBlocks keyword nameOptional ts)) (hts : Legible ts) :
    b.WellShaped nameOptional := by
  obtain ⟨-, ⟨site⟩⟩ := exists_site_of_mem_scanFrom hb
  have hbody : Legible b.body := hts.of_sublist site.body_infix.sublist
  have hheader : Legible (site.clauses ++ site.opening :: (b.body ++ [site.closing])) := by
    intro t ht
    have hmem : t ∈ site.before ++ site.word
        :: (site.clauses ++ site.opening :: (b.body ++ site.closing :: site.behind)) := by
      simp only [List.mem_append, List.mem_cons, List.not_mem_nil, or_false] at ht ⊢
      tauto
    exact hts t (site.mem_of_mem hmem)
  exact ⟨Header.wellShaped_of_read? site.header_eq hheader, hbody⟩

variable {b : Block}

/-- A block that has to be named is. -/
theorem WellShaped.name (h : b.WellShaped false) : IsIdentifier b.name := by
  cases hname : b.header.name with
  | none => exact absurd hname (h.header.named rfl)
  | some w =>
    rw [Block.name, hname]
    exact h.header.name w hname

theorem WellShaped.lines {nameOptional : Bool} (h : b.WellShaped nameOptional) :
    ∀ line ∈ b.lines, Legible line := by
  intro line hline
  have hown : line.Sublist b.ownTokens := by
    rw [← flatten_lines]
    exact List.sublist_flatten_of_mem hline
  exact h.body.of_sublist (hown.trans (sublist_ownTokensFrom b.opener.line 0 b.body))

end Block

/-- What holds of whatever is read from a block of a text holds of all that is read from the blocks
of a keyword. -/
theorem wellShaped_readBlocks {α : Type} {p : α → Prop} {read : Block → Noted α}
    (h : ∀ b : Block, b.WellShaped false → p (read b).value) (keyword : String) {ts : List Token}
    (hts : Legible ts) : ∀ a ∈ (readBlocks keyword read ts).value, p a := by
  intro a ha
  obtain ⟨b, hb, rfl⟩ := List.mem_map.mp ha
  exact h b (Block.wellShaped_of_mem_scanBlocks hb hts)

/-! ## 2. Domain objects -/

/-- An entity as a text can state it. -/
structure Entity.WellShaped (e : Entity) : Prop where
  name : IsIdentifier e.name
  parent : ∀ w ∈ e.parent, IsIdentifier w
  attributes : ∀ a ∈ e.attributes, a.WellShaped
  references : ∀ r ∈ e.references, r.WellShaped
  operations : ∀ o ∈ e.operations, o.WellShaped

/-- A value object as a text can state it. -/
structure ValueObject.WellShaped (v : ValueObject) : Prop where
  name : IsIdentifier v.name
  parent : ∀ w ∈ v.parent, IsIdentifier w
  attributes : ∀ a ∈ v.attributes, a.WellShaped
  references : ∀ r ∈ v.references, r.WellShaped
  operations : ∀ o ∈ v.operations, o.WellShaped

/-- A command or an event as a text can state it. -/
structure Message.WellShaped (m : Message) : Prop where
  name : IsIdentifier m.name
  parent : ∀ w ∈ m.parent, IsIdentifier w
  attributes : ∀ a ∈ m.attributes, a.WellShaped
  references : ∀ r ∈ m.references, r.WellShaped

/-- A service as a text can state it. -/
structure Service.WellShaped (s : Service) : Prop where
  name : IsIdentifier s.name
  operations : ∀ o ∈ s.operations, o.WellShaped

section

variable {b : Block}

theorem Entity.wellShaped_ofBlock (h : b.WellShaped false) : (ofBlock b).value.WellShaped :=
  have hmembers := Members.wellShaped_ofLines ["aggregateRoot"] true h.lines
  ⟨h.name, h.header.parent, hmembers.attributes, hmembers.references, hmembers.operations⟩

theorem ValueObject.wellShaped_ofBlock (h : b.WellShaped false) : (ofBlock b).value.WellShaped :=
  have hmembers := Members.wellShaped_ofLines ["immutable", "persistent"] true h.lines
  ⟨h.name, h.header.parent, hmembers.attributes, hmembers.references, hmembers.operations⟩

theorem Message.wellShaped_ofBlock (h : b.WellShaped false) : (ofBlock b).value.WellShaped :=
  have hmembers := Members.wellShaped_ofLines ["persistent"] false h.lines
  ⟨h.name, h.header.parent, hmembers.attributes, hmembers.references⟩

theorem Service.wellShaped_ofBlock (h : b.WellShaped false) : (ofBlock b).value.WellShaped :=
  ⟨h.name, wellShaped_serviceOperations h.lines⟩

end

/-! ## 3. Contexts and domains -/

/-- An aggregate as a text can state it. -/
structure Aggregate.WellShaped (a : Aggregate) : Prop where
  name : IsIdentifier a.name
  entities : ∀ e ∈ a.entities, e.WellShaped
  valueObjects : ∀ v ∈ a.valueObjects, v.WellShaped
  services : ∀ s ∈ a.services, s.WellShaped
  commands : ∀ m ∈ a.commands, m.WellShaped
  events : ∀ m ∈ a.events, m.WellShaped

/-- A bounded context as a text can state it. -/
structure BoundedContext.WellShaped (c : BoundedContext) : Prop where
  name : IsIdentifier c.name
  aggregates : ∀ a ∈ c.aggregates, a.WellShaped

/-- A domain as a text can state it. -/
structure Domain.WellShaped (d : Domain) : Prop where
  name : IsIdentifier d.name
  subdomains : ∀ s ∈ d.subdomains, IsIdentifier s.name

section

variable {b : Block}

theorem Aggregate.wellShaped_ofBlock (h : b.WellShaped false) : (ofBlock b).value.WellShaped where
  name := h.name
  entities := wellShaped_readBlocks (fun _ => Entity.wellShaped_ofBlock) "Entity" h.body
  valueObjects :=
    wellShaped_readBlocks (fun _ => ValueObject.wellShaped_ofBlock) "ValueObject" h.body
  services := wellShaped_readBlocks (fun _ => Service.wellShaped_ofBlock) "Service" h.body
  commands := wellShaped_readBlocks (fun _ => Message.wellShaped_ofBlock) "CommandEvent" h.body
  events := wellShaped_readBlocks (fun _ => Message.wellShaped_ofBlock) "DomainEvent" h.body

theorem BoundedContext.wellShaped_ofBlock (h : b.WellShaped false) :
    (ofBlock b).value.WellShaped where
  name := h.name
  aggregates := wellShaped_readBlocks (fun _ => Aggregate.wellShaped_ofBlock) "Aggregate" h.body

theorem Domain.wellShaped_ofBlock (h : b.WellShaped false) : (ofBlock b).value.WellShaped where
  name := h.name
  subdomains := wellShaped_readBlocks (fun _ h => h.name) "Subdomain" h.body

end

/-! ## 4. Relationships -/

/-- The name of a relationship. -/
def Relationship.name? : Relationship → Option String
  | partnership t | sharedKernel t => t.name
  | upstreamDownstream t | customerSupplier t => t.name

/-- A relationship as a text can state it. -/
structure Relationship.WellShaped (r : Relationship) : Prop where
  first : IsIdentifier r.participants.1
  second : IsIdentifier r.participants.2
  name : ∀ w ∈ r.name?, IsIdentifier w

theorem Side.isIdentifier_of_readLeft? {before : List Token} {side : Side}
    (h : readLeft? before = some side) (hb : Legible before) : IsIdentifier side.context := by
  unfold readLeft? at h
  split at h
  · cases h
  next t r =>
  split at h
  · split at h
    · cases h
    next u s hdrop =>
    obtain ⟨w, hw, rfl⟩ := Option.map_eq_some_iff.mp h
    obtain ⟨v, hv, hword⟩ := Option.bind_eq_some_iff.mp hw
    have hus : (u :: s).Sublist r := hdrop ▸ List.dropWhile_sublist _
    have hs : Legible s := hb.of_sublist
      (((List.sublist_cons_self u s).trans hus).trans (List.sublist_cons_self t r))
    exact hs v (List.mem_of_head? hv) w hword
  · obtain ⟨w, hw, rfl⟩ := Option.map_eq_some_iff.mp h
    exact (legible_cons.mp hb).1 w hw

theorem Side.isIdentifier_of_readContext? {roles : List String} {ts rest : List Token}
    {side : Side} (h : readContext? roles ts = some (side, rest)) (hts : Legible ts) :
    IsIdentifier side.context := by
  unfold readContext? at h
  split at h
  · cases h
  split at h
  · split at h
    · cases h
    · obtain ⟨w, hw, he⟩ := Option.map_eq_some_iff.mp h
      cases he
      exact (legible_cons.mp (legible_cons.mp hts).2).1 w hw
  · obtain ⟨w, hw, he⟩ := Option.map_eq_some_iff.mp h
    cases he
    exact (legible_cons.mp hts).1 w hw

theorem Side.isIdentifier_of_readRight? {ts rest : List Token} {side : Side}
    (h : readRight? ts = some (side, rest)) (hts : Legible ts) : IsIdentifier side.context := by
  unfold readRight? at h
  split at h
  · cases h
  next t r =>
  split at h
  · split at h
    · cases h
    next u s hdrop =>
    have hus : (u :: s).Sublist r := hdrop ▸ List.dropWhile_sublist _
    exact isIdentifier_of_readContext? h (hts.of_sublist
      (((List.sublist_cons_self u s).trans hus).trans (List.sublist_cons_self t r)))
  · exact isIdentifier_of_readContext? h hts

theorem isIdentifier_of_readRelationshipName {ts : List Token} (hts : Legible ts) :
    ∀ w ∈ (readRelationshipName ts).1, IsIdentifier w := by
  unfold readRelationshipName
  split
  · next t u r =>
    split
    · split
      · next name hname =>
        rintro _ ⟨⟩
        exact (legible_cons.mp (legible_cons.mp hts).2).1 name hname
      · simp
    · simp
  · simp

namespace Relationship

theorem participants_ofSides (connector : Connector) (left right : Side) (name : Option String)
    (body : List Token) :
    (ofSides connector left right name body).participants = (left.context, right.context)
      ∨ (ofSides connector left right name body).participants = (right.context, left.context) := by
  cases connector <;> simp only [ofSides] <;> (try split) <;> simp [participants]

theorem name?_ofSides (connector : Connector) (left right : Side) (name : Option String)
    (body : List Token) : (ofSides connector left right name body).name? = name := by
  cases connector <;> simp only [ofSides] <;> (try split) <;> rfl

theorem wellShaped_ofSides (connector : Connector) {left right : Side} {name : Option String}
    (body : List Token) (hleft : IsIdentifier left.context) (hright : IsIdentifier right.context)
    (hname : ∀ w ∈ name, IsIdentifier w) :
    (ofSides connector left right name body).WellShaped := by
  rw [← name?_ofSides connector left right name body] at hname
  rcases participants_ofSides connector left right name body with h | h
  · exact ⟨by rwa [h], by rwa [h], hname⟩
  · exact ⟨by rwa [h], by rwa [h], hname⟩

theorem wellShaped_of_read? {connector : Connector} {before after rest : List Token}
    {r : Relationship} (h : read? connector before after = some (r, rest))
    (hbefore : Legible before) (hafter : Legible after) : r.WellShaped := by
  simp only [read?, Option.bind_eq_bind, Option.bind_eq_some_iff] at h
  obtain ⟨left, hleft, ⟨right, afterRight⟩, hright, h⟩ := h
  cases h
  have hrest := hafter.of_sublist (suffix_of_readRight hright).sublist
  exact wellShaped_ofSides connector _ (Side.isIdentifier_of_readLeft? hleft hbefore)
    (Side.isIdentifier_of_readRight? hright hafter) (isIdentifier_of_readRelationshipName hrest)

/-- What the walk takes it puts in front of what is left. -/
theorem legible_taken {before r : List Token} {t : Token} (hbefore : Legible before)
    (hts : Legible (t :: r)) (n : Nat) : Legible ((r.take n).reverse ++ t :: before) := by
  obtain ⟨ht, hr⟩ := legible_cons.mp hts
  rw [legible_append, legible_reverse, legible_cons]
  exact ⟨hr.of_sublist (List.take_sublist n r), ht, hbefore⟩

theorem wellShaped_readRelationshipsFrom {before ts : List Token} (hbefore : Legible before)
    (hts : Legible ts) : ∀ r ∈ matchedValues (readRelationshipsFrom before ts), r.WellShaped := by
  fun_induction readRelationshipsFrom before ts with
  | case1 => simp
  | case2 before t r ht rest ih =>
    have hrest := (suffix_splitGroup r).sublist.trans (List.sublist_cons_self t r)
    exact ih (legible_taken hbefore hts _) (hts.of_sublist hrest)
  | case3 before t r ht hc ih =>
    obtain ⟨htoken, hr⟩ := legible_cons.mp hts
    exact ih (legible_cons.mpr ⟨htoken, hbefore⟩) hr
  | case4 before t r ht connector n hc behind hr ih =>
    have hdrop := (List.drop_sublist n r).trans (List.sublist_cons_self t r)
    exact ih (legible_taken hbefore hts n) (hts.of_sublist hdrop)
  | case5 before t r ht connector n hc behind relationship rest hr taken ih =>
    have hdrop : Legible (r.drop n) :=
      hts.of_sublist ((List.drop_sublist n r).trans (List.sublist_cons_self t r))
    have htaken : Legible taken.reverse :=
      legible_reverse.mpr (hdrop.of_sublist (List.take_sublist _ _))
    have hrest := hdrop.of_sublist (suffix_of_readRelationship hr).sublist
    exact List.forall_mem_cons.mpr ⟨wellShaped_of_read? hr hbefore hdrop,
      ih (legible_append.mpr ⟨htaken, legible_taken hbefore hts n⟩) hrest⟩

end Relationship

/-- A context map as a text can state it. -/
structure ContextMap.WellShaped (m : ContextMap) : Prop where
  name : ∀ w ∈ m.name, IsIdentifier w
  relationships : ∀ r ∈ m.relationships, r.WellShaped

theorem ContextMap.wellShaped_ofBlock {b : Block} (h : b.WellShaped true) :
    (ofBlock b).value.WellShaped :=
  ⟨h.header.name, Relationship.wellShaped_readRelationshipsFrom legible_nil h.body⟩

/-! ## 5. Documents -/

/-- The name of a requirement. -/
def UserRequirement.name : UserRequirement → String
  | useCase u => u.name
  | userStory s => s.name

/-- A model as a text can state it. -/
structure Model.WellShaped (m : Model) : Prop where
  contextMap : ∀ map ∈ m.contextMap, map.WellShaped
  contexts : ∀ c ∈ m.contexts, c.WellShaped
  domains : ∀ d ∈ m.domains, d.WellShaped
  requirements : ∀ r ∈ m.requirements, IsIdentifier r.name

theorem wellShaped_readContextMap {ts : List Token} (hts : Legible ts) :
    ∀ map ∈ (readContextMap ts).value, map.WellShaped := by
  intro map hmap
  simp only [readContextMap] at hmap
  split at hmap
  · cases hmap
  · next b more hblocks =>
    cases hmap
    have hb : b ∈ matchedValues (scanBlocks "ContextMap" true ts) := by
      rw [hblocks]
      exact List.mem_cons_self
    exact ContextMap.wellShaped_ofBlock (Block.wellShaped_of_mem_scanBlocks hb hts)

theorem isIdentifier_readUserRequirements {ts : List Token} (hts : Legible ts) :
    ∀ r ∈ (readUserRequirements ts).value, IsIdentifier r.name := by
  have hread : ∀ (keyword : String) (read : Block → UserRequirement),
      (∀ b, (read b).name = b.name) →
      ∀ x ∈ (readRequirements keyword read ts).value, IsIdentifier x.2.name := by
    intro keyword read hname
    refine wellShaped_readBlocks (fun b h => ?_) keyword hts
    rw [hname b]
    exact h.name
  intro r hr
  obtain ⟨x, hx, rfl⟩ := List.mem_map.mp hr
  rcases List.mem_merge.mp hx with hx | hx
  · exact hread "UseCase" _ (fun _ => rfl) x hx
  · exact hread "UserStory" _ (fun _ => rfl) x hx

/-- **What a text states is well shaped.** -/
theorem Report.wellShaped_ofText (source : String) : (ofText source).model.WellShaped :=
  have hts := legible_lex (stripComments source.toList)
  { contextMap := wellShaped_readContextMap hts
    contexts :=
      wellShaped_readBlocks (fun _ => BoundedContext.wellShaped_ofBlock) "BoundedContext" hts
    domains := wellShaped_readBlocks (fun _ => Domain.wellShaped_ofBlock) "Domain" hts
    requirements := isIdentifier_readUserRequirements hts }

/-- **The model of every text is well shaped.**  Each name in it is an identifier, and so is each
name that may be left out where it is given; no type nests deeper than the reader goes, no
constraint has an empty value, and no transition an empty list of sources. -/
theorem wellShaped_of_parse (source : String) :
    ∃ m, Model.parse source false = .ok m ∧ m.WellShaped :=
  ⟨(Report.ofText source).model, rfl, Report.wellShaped_ofText source⟩

end ContextAtlas
