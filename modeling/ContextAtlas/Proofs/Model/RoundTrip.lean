/-
# A dumped model is loaded back

Every part of a model is encoded as an object whose fields are looked up again by name.  A part
survives when the check of its encoding gives the part back, and when its encoding nests no deeper
than the reader of the text allows; a part survives when its own parts do.

* `Survives`: a part that comes back from its encoding;
* `TypeRef.survives`, `Attribute.survives`, ..., `Model.survives`: one lemma for each kind of part,
  from the types up to the model;
* `Model.load_dump`: the text of a model is loaded as that model, in every layout;
* `Model.dump_roundTrips`: dumping loses nothing, loading and dumping again changes nothing, and
  every parsed document can be dumped, with any indentation that a machine word holds;
* `Model.dump_refuses_word`: with 2 ^ 64 blanks nothing can be dumped.
-/
import ContextAtlas.Model.Decoding
import ContextAtlas.Model.Encoding
import ContextAtlas.Proofs.Json.RoundTrip
import ContextAtlas.Proofs.Model.Nesting

namespace ContextAtlas

open Json (Check Checked Fields Fits lastField? ofOption ofStrings)

/-! ## 1. Single values -/

namespace Json

section

variable {α : Type}

@[simp] theorem Check.text_string (s : String) : Check.text (.string s) = .ok s := rfl

@[simp] theorem Check.flag_bool (b : Bool) : Check.flag (.bool b) = .ok b := rfl

@[simp] theorem Check.member_encodeMember [Spelled α] (a : α) :
    Check.member (encodeMember a) = .ok a := by
  simp [encodeMember, Check.member]

@[simp] theorem Check.optional_ofOption (o : Option String) :
    Check.optional Check.text (ofOption o) = .ok o := by
  cases o <;> rfl

@[simp] theorem Check.optional_encodeMember? [Spelled α] (o : Option α) :
    Check.optional Check.member (encodeMember? o) = .ok o := by
  cases o with
  | none => rfl
  | some a => simp [encodeMember?, Check.optional, encodeMember, Check.member]

theorem Check.optional_encodeOption {encode : α → Json} {check : Check α} {o : Option α}
    (h : ∀ a ∈ o, check (encode a) = .ok a) (hnull : ∀ a, encode a ≠ .null) :
    Check.optional check (encodeOption encode o) = .ok o := by
  cases o with
  | none => rfl
  | some a =>
    have ha := h a rfl
    simp only [encodeOption, Check.optional]
    split
    · next hv => exact absurd hv (hnull a)
    · simp [ha]

theorem Check.itemsFrom_map {encode : α → Json} {check : Check α} {parts : List α}
    (h : ∀ a ∈ parts, check (encode a) = .ok a) (index : Nat) :
    Check.itemsFrom check index (parts.map encode) = .ok parts := by
  induction parts generalizing index with
  | nil => rfl
  | cons a parts ih =>
    simp [Check.itemsFrom, h a List.mem_cons_self, ih fun b hb => h b (List.mem_cons_of_mem _ hb)]

theorem Check.list_encodeList {encode : α → Json} {check : Check α} {parts : List α}
    (h : ∀ a ∈ parts, check (encode a) = .ok a) :
    Check.list check (encodeList encode parts) = .ok parts :=
  Check.itemsFrom_map h 0

@[simp] theorem Check.list_ofStrings (texts : List String) :
    Check.list Check.text (ofStrings texts) = .ok texts :=
  Check.itemsFrom_map (fun s _ => Check.text_string s) 0

@[simp] theorem Check.list_encodeMember [Spelled α] (members : List α) :
    Check.list Check.member (encodeList encodeMember members) = .ok members :=
  Check.list_encodeList fun _ _ => Check.member_encodeMember _

end

/-! ## 2. Nesting of single values -/

section

variable {α : Type} {levels : Nat}

attribute [simp] Fits.null Fits.bool Fits.string

@[simp] theorem fits_ofOption (o : Option String) : Fits levels (ofOption o) := by
  cases o <;> simp [ofOption]

@[simp] theorem fits_encodeMember [Spelled α] (a : α) : Fits levels (encodeMember a) := .string _

@[simp] theorem fits_encodeMember? [Spelled α] (o : Option α) : Fits levels (encodeMember? o) := by
  cases o <;> simp [encodeMember?]

theorem fits_encodeOption {encode : α → Json} {o : Option α}
    (h : ∀ a ∈ o, Fits levels (encode a)) : Fits levels (encodeOption encode o) := by
  cases o with
  | none => exact .null
  | some a => exact h a rfl

theorem fits_encodeList {encode : α → Json} {parts : List α}
    (h : ∀ a ∈ parts, Fits levels (encode a)) : Fits (levels + 1) (encodeList encode parts) :=
  .array (List.forall_mem_map.mpr h)

@[simp] theorem fits_ofStrings (texts : List String) : Fits (levels + 1) (ofStrings texts) :=
  .array (List.forall_mem_map.mpr fun s _ => .string s)

end

end Json

open Json

/-! ## 3. Parts that survive -/

/-- A part that comes back from its encoding, which nests at most `levels` levels deep. -/
structure Survives {α : Type} (encode : α → Json) (check : Check α) (levels : Nat) (a : α) :
    Prop where
  check_encode : check (encode a) = .ok a
  fits : Fits levels (encode a)

section

variable {α : Type} {encode : α → Json} {check : Check α} {levels : Nat}

theorem Survives.list {parts : List α} (h : ∀ a ∈ parts, Survives encode check levels a) :
    Survives (encodeList encode) (Check.list check) (levels + 1) parts where
  check_encode := Check.list_encodeList fun a ha => (h a ha).check_encode
  fits := fits_encodeList fun a ha => (h a ha).fits

theorem Survives.option {part : Option α} (h : ∀ a ∈ part, Survives encode check levels a)
    (hnull : ∀ a, encode a ≠ .null) :
    Survives (encodeOption encode) (Check.optional check) levels part where
  check_encode := Check.optional_encodeOption (fun a ha => (h a ha).check_encode) hnull
  fits := fits_encodeOption fun a ha => (h a ha).fits

theorem Survives.mono {a : α} {levels' : Nat} (h : Survives encode check levels a)
    (hle : levels ≤ levels') : Survives encode check levels' a :=
  ⟨h.check_encode, h.fits.mono hle⟩

end

attribute [local simp] Check.object Check.tagged Fields.required Fields.withDefault
  Fields.optional Fields.flag Fields.list lastField?

/-! ## 4. Members -/

theorem TypeRef.survives (t : TypeRef) : Survives encode TypeRef.check (t.depth + 1) t := by
  induction t with
  | primitive p =>
    constructor
    · rw [encode, TypeRef.check]
      simp
    · exact .object (by simp)
  | collection c e ih =>
    constructor
    · rw [encode, TypeRef.check]
      simp [ih.check_encode]
    · exact .object (by simp [depth, ih.fits])
  | map k v ihk ihv =>
    have hk : Fits (max k.depth v.depth + 1) k.encode := ihk.fits.mono (by omega)
    have hv : Fits (max k.depth v.depth + 1) v.encode := ihv.fits.mono (by omega)
    constructor
    · rw [encode, TypeRef.check]
      simp [ihk.check_encode, ihv.check_encode]
    · exact .object (by simp [depth, hk, hv])
  | named n =>
    constructor
    · rw [encode, TypeRef.check]
      simp
    · exact .object (by simp)

theorem TypeRef.survives_of_depth_le {t : TypeRef} (h : t.depth ≤ maxTypeDepth) :
    Survives encode TypeRef.check (maxTypeDepth + 1) t :=
  t.survives.mono (by omega)

theorem Attribute.survives {a : Attribute} (h : a.type.depth ≤ maxTypeDepth) :
    Survives encode check (maxTypeDepth + 2) a := by
  have htype := TypeRef.survives_of_depth_le h
  constructor
  · simp [encode, check, htype.check_encode]
  · exact .object (by simp [htype.fits])

theorem Reference.survives (r : Reference) : Survives encode check (maxTypeDepth + 2) r := by
  constructor
  · simp [encode, check]
  · exact .object (by simp)

theorem Parameter.survives {p : Parameter} (h : p.type.depth ≤ maxTypeDepth) :
    Survives encode check (maxTypeDepth + 2) p := by
  have htype := TypeRef.survives_of_depth_le h
  constructor
  · simp [encode, check, htype.check_encode]
  · exact .object (by simp [htype.fits])

theorem StateTransition.survives (t : StateTransition) :
    Survives encode check (maxTypeDepth + 3) t := by
  have hsources : Survives (encodeOption ofStrings) (Check.optional checkTexts) (maxTypeDepth + 2)
      t.sources :=
    .option (fun texts _ => ⟨Check.list_ofStrings texts, fits_ofStrings texts⟩)
      fun _ => Json.noConfusion
  constructor
  · simp [encode, check, hsources.check_encode]
  · exact .object (by simp [hsources.fits])

theorem Operation.survives {o : Operation} (h : Shallow o.typeRefs) :
    Survives encode check (maxTypeDepth + 4) o := by
  simp only [typeRefs, shallow_cons, shallow_map] at h
  have hreturn := (TypeRef.survives_of_depth_le h.1).mono (Nat.le_add_right _ 2)
  have hparameters := Survives.list fun p hp => Parameter.survives (h.2 p hp)
  have htransition := Survives.option (fun t (_ : t ∈ o.transition) => t.survives)
    fun _ => Json.noConfusion
  constructor
  · simp [encode, check, hreturn.check_encode, hparameters.check_encode, htransition.check_encode]
  · exact .object (by simp [hreturn.fits, hparameters.fits, htransition.fits])

/-! ## 5. Tactical design -/

section

variable {attributes : List Attribute} {operations : List Operation}

theorem survives_attributes (h : ∀ a ∈ attributes, a.type.depth ≤ maxTypeDepth) :
    Survives (encodeList Attribute.encode) (Check.list Attribute.check) (maxTypeDepth + 5)
      attributes :=
  (Survives.list fun a ha => Attribute.survives (h a ha)).mono (Nat.le_add_right _ 2)

theorem survives_references (references : List Reference) :
    Survives (encodeList Reference.encode) (Check.list Reference.check) (maxTypeDepth + 5)
      references :=
  (Survives.list fun r _ => r.survives).mono (Nat.le_add_right _ 2)

theorem survives_operations (h : ∀ o ∈ operations, Shallow o.typeRefs) :
    Survives (encodeList Operation.encode) (Check.list Operation.check) (maxTypeDepth + 5)
      operations :=
  Survives.list fun o ho => Operation.survives (h o ho)

end

theorem Entity.survives {e : Entity} (h : Shallow e.typeRefs) :
    Survives encode check (maxTypeDepth + 6) e := by
  simp only [typeRefs, shallow_append, shallow_map, shallow_flatMap] at h
  have hattributes := survives_attributes h.1
  have hreferences := survives_references e.references
  have hoperations := survives_operations h.2
  constructor
  · simp [encode, check, hattributes.check_encode, hreferences.check_encode,
      hoperations.check_encode]
  · exact .object (by simp [hattributes.fits, hreferences.fits, hoperations.fits])

theorem ValueObject.survives {v : ValueObject} (h : Shallow v.typeRefs) :
    Survives encode check (maxTypeDepth + 6) v := by
  simp only [typeRefs, shallow_append, shallow_map, shallow_flatMap] at h
  have hattributes := survives_attributes h.1
  have hreferences := survives_references v.references
  have hoperations := survives_operations h.2
  constructor
  · simp [encode, check, hattributes.check_encode, hreferences.check_encode,
      hoperations.check_encode]
  · exact .object (by simp [hattributes.fits, hreferences.fits, hoperations.fits])

theorem Message.survives {m : Message} (h : Shallow m.typeRefs) :
    Survives encode check (maxTypeDepth + 6) m := by
  simp only [typeRefs, shallow_map] at h
  have hattributes := survives_attributes h
  have hreferences := survives_references m.references
  constructor
  · simp [encode, check, hattributes.check_encode, hreferences.check_encode]
  · exact .object (by simp [hattributes.fits, hreferences.fits])

theorem Service.survives {s : Service} (h : Shallow s.typeRefs) :
    Survives encode check (maxTypeDepth + 6) s := by
  simp only [typeRefs, shallow_flatMap] at h
  have hoperations := survives_operations h
  constructor
  · simp [encode, check, hoperations.check_encode]
  · exact .object (by simp [hoperations.fits])

theorem Aggregate.survives {a : Aggregate} (h : Shallow a.typeRefs) :
    Survives encode check (maxTypeDepth + 8) a := by
  simp only [typeRefs, shallow_append, shallow_flatMap] at h
  obtain ⟨⟨⟨⟨hentity, hvalue⟩, hservice⟩, hcommand⟩, hevent⟩ := h
  have hentities := Survives.list fun e he => Entity.survives (hentity e he)
  have hvalues := Survives.list fun v hv => ValueObject.survives (hvalue v hv)
  have hservices := Survives.list fun s hs => Service.survives (hservice s hs)
  have hcommands := Survives.list fun m hm => Message.survives (hcommand m hm)
  have hevents := Survives.list fun m hm => Message.survives (hevent m hm)
  constructor
  · simp [encode, check, hentities.check_encode, hvalues.check_encode, hservices.check_encode,
      hcommands.check_encode, hevents.check_encode]
  · exact .object (by simp [hentities.fits, hvalues.fits, hservices.fits, hcommands.fits,
      hevents.fits])

/-! ## 6. Strategic design -/

theorem BoundedContext.survives {c : BoundedContext} (h : Shallow c.typeRefs) :
    Survives encode check (maxTypeDepth + 10) c := by
  simp only [typeRefs, shallow_flatMap] at h
  have haggregates := Survives.list fun a ha => Aggregate.survives (h a ha)
  constructor
  · simp [encode, check, haggregates.check_encode]
  · exact .object (by simp [haggregates.fits])

theorem Subdomain.survives (s : Subdomain) : Survives encode check 1 s := by
  constructor
  · simp [encode, check]
  · exact .object (by simp)

theorem Domain.survives (d : Domain) : Survives encode check 3 d := by
  have hsubdomains := Survives.list fun s (_ : s ∈ d.subdomains) => s.survives
  constructor
  · simp [encode, check, hsubdomains.check_encode]
  · exact .object (by simp [hsubdomains.fits])

theorem fits_encodeMembers {α : Type} [Spelled α] (levels : Nat) (members : List α) :
    Fits (levels + 1) (encodeList encodeMember members) :=
  fits_encodeList fun a _ => fits_encodeMember a

theorem Relationship.survives (r : Relationship) : Survives encode check 2 r := by
  constructor
  · cases r <;> simp [encode, check, variant?, Symmetric.encode, Symmetric.checkFields,
      Directed.encode, Directed.checkFields]
  · cases r <;> exact .object (by simp [fits_encodeMembers])

theorem ContextMap.survives (m : ContextMap) : Survives encode check 4 m := by
  have hrelationships := Survives.list fun r (_ : r ∈ m.relationships) => r.survives
  constructor
  · simp [encode, check, hrelationships.check_encode]
  · exact .object (by simp [hrelationships.fits])

/-! ## 7. Requirements and models -/

theorem UserRequirement.survives (r : UserRequirement) : Survives encode check 2 r := by
  constructor
  · cases r <;> simp [encode, check, variant?, UseCase.encode, UseCase.checkFields,
      UserStory.encode, UserStory.checkFields]
  · cases r <;> exact .object (by simp)

theorem Model.survives {m : Model} (h : Shallow m.typeRefs) :
    Survives encode check (maxTypeDepth + 12) m := by
  simp only [typeRefs, shallow_flatMap] at h
  have hmap := (Survives.option (fun c (_ : c ∈ m.contextMap) => c.survives)
    fun _ => Json.noConfusion).mono (show 4 ≤ maxTypeDepth + 11 by decide)
  have hcontexts := Survives.list fun c hc => BoundedContext.survives (h c hc)
  have hdomains := (Survives.list fun d (_ : d ∈ m.domains) => d.survives).mono
    (show 4 ≤ maxTypeDepth + 11 by decide)
  have hrequirements := (Survives.list fun r (_ : r ∈ m.requirements) => r.survives).mono
    (show 3 ≤ maxTypeDepth + 11 by decide)
  constructor
  · simp [encode, check, hmap.check_encode, hcontexts.check_encode, hdomains.check_encode,
      hrequirements.check_encode]
  · exact .object (by simp [hmap.fits, hcontexts.fits, hdomains.fits, hrequirements.fits])

/-! ## 8. Texts -/

/-- **The text of a model is loaded as that model, in every layout.** -/
theorem Model.load_dump {m : Model} (h : Shallow m.typeRefs) (layout : Layout) :
    load (m.dump layout) = .ok m := by
  have hsurvives := Model.survives h
  have hparse := parse?_render (hsurvives.fits.mono (by decide)) layout
  simp [load, loadText, dump, String.toList_ofList, hparse, hsurvives.check_encode]

/-- An indentation that is missing, or that is a number of blanks which fits a machine word, has a
layout. -/
theorem Json.Layout.exists_of_indent {indent : Option Int}
    (h : ∀ n ∈ indent, 0 ≤ n ∧ n < 0x10000000000000000) :
    ∃ layout, ofIndent? indent = some layout := by
  cases indent with
  | none => exact ⟨.compact, rfl⟩
  | some n => exact ⟨.indented n.toNat, if_pos (h n rfl)⟩

/-- Every other indentation is refused. -/
theorem Json.Layout.ofIndent?_eq_none {indent : Option Int}
    (h : ∃ n ∈ indent, n < 0 ∨ 0x10000000000000000 ≤ n) : ofIndent? indent = none := by
  obtain ⟨n, rfl, hn⟩ := h
  exact if_neg (by omega)

/-- **Dumping and loading.**  Let the types of a model be shallow, and let an indentation be missing
or a number from zero to the last of a machine word.  Then there is a text of the model; it is
loaded as the same model, and what was loaded is dumped as this text again.  No other such model has
the text, with whatever indentation.  Every document is parsed as a model of this kind.  An
indentation that no machine word holds is refused. -/
theorem Model.dump_roundTrips :
    (∀ (m : Model) (indent : Option Int), Shallow m.typeRefs →
      (∀ n ∈ indent, 0 ≤ n ∧ n < 0x10000000000000000) →
      ∃ layout, Layout.ofIndent? indent = some layout
        ∧ load (m.dump layout) = .ok m
        ∧ (load (m.dump layout)).map (dump layout) = .ok (m.dump layout))
    ∧ (∀ (m n : Model) (indent indent' : Option Int) (layout layout' : Layout),
      Shallow m.typeRefs → Shallow n.typeRefs →
      Layout.ofIndent? indent = some layout → Layout.ofIndent? indent' = some layout' →
      m.dump layout = n.dump layout' → m = n)
    ∧ (∀ (source : String) (indent : Option Int), (∀ n ∈ indent, 0 ≤ n ∧ n < 0x10000000000000000) →
      ∃ m layout, parse source false = .ok m ∧ Shallow m.typeRefs
        ∧ Layout.ofIndent? indent = some layout ∧ load (m.dump layout) = .ok m)
    ∧ ∀ indent : Option Int, (∃ n ∈ indent, n < 0 ∨ 0x10000000000000000 ≤ n) →
      Layout.ofIndent? indent = none := by
  refine ⟨?_, ?_, ?_, fun _ => Layout.ofIndent?_eq_none⟩
  · intro m indent h hindent
    obtain ⟨layout, hlayout⟩ := Layout.exists_of_indent hindent
    have hload : load (m.dump layout) = .ok m := load_dump h layout
    exact ⟨layout, hlayout, hload, by rw [hload]; rfl⟩
  · intro m n _ _ layout layout' hm hn _ _ hdump
    have hload : load (m.dump layout) = .ok m := load_dump hm layout
    rw [hdump, load_dump hn layout'] at hload
    exact (Except.ok.inj hload).symm
  · intro source indent hindent
    obtain ⟨layout, hlayout⟩ := Layout.exists_of_indent hindent
    have hshallow := Report.shallow_ofText source
    exact ⟨(Report.ofText source).model, layout, rfl, hshallow, hlayout, load_dump hshallow layout⟩

/-- A model with nested types, and with texts that have to be escaped. -/
def sampleModel : Model where
  contextMap := some {
    name := some "a \"map\""
    relationships := [.partnership { first := "A", second := "B" }] }
  contexts := [{
    name := "A"
    vision := some "tab\tand\x01control"
    aggregates := [{
      name := "B"
      entities := [{
        name := "C"
        attributes := [{
          name := "d"
          type := .map (.primitive .string) (.collection .list (.named "E")) }]
        operations := [{ name := "f", transition := some ⟨none, ["X"], false⟩ }] }] }] }]

theorem Model.dump_roundTrips_sample :
    Shallow sampleModel.typeRefs
    ∧ Layout.ofIndent? (some 2) = some (.indented 2)
    ∧ load (sampleModel.dump (.indented 2)) = .ok sampleModel
    ∧ sampleModel.dump .compact ≠ ({} : Model).dump (.indented 2) := by
  have hsample : Shallow sampleModel.typeRefs := by decide
  have hempty : Shallow ({} : Model).typeRefs := by decide
  have hcompact : Layout.ofIndent? none = some .compact := rfl
  have htwo : Layout.ofIndent? (some 2) = some (.indented 2) := by decide
  refine ⟨hsample, htwo, ?_, fun h => ?_⟩
  · obtain ⟨layout, hlayout, hload, -⟩ := dump_roundTrips.1 sampleModel (some 2) hsample (by simp)
    rw [htwo] at hlayout
    obtain rfl : Layout.indented 2 = layout := Option.some.inj hlayout
    exact hload
  · have heq : sampleModel = {} :=
      dump_roundTrips.2.1 sampleModel {} none (some 2) _ _ hsample hempty hcompact htwo h
    exact absurd heq (by decide)

/-- **Blanks that no machine word counts.**  An indentation is not refused for being negative alone:
of 2 ^ 64 blanks there is no layout, so not even the empty model has a text. -/
theorem Model.dump_refuses_word :
    ¬ ∀ (m : Model) (indent : Option Int), Shallow m.typeRefs → (∀ n ∈ indent, 0 ≤ n) →
      ∃ layout, Layout.ofIndent? indent = some layout ∧ load (m.dump layout) = .ok m := by
  intro h
  obtain ⟨layout, hlayout, -⟩ := h {} (some 0x10000000000000000) (by decide) (by simp)
  rw [Layout.ofIndent?_eq_none ⟨_, rfl, .inr (Int.le_refl _)⟩] at hlayout
  exact absurd hlayout (by simp)

end ContextAtlas
