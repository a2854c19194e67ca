/-
# JSON values

The values of the data format in which models are exchanged. An object keeps its fields in order,
and may hold a name twice; a reader of the object then takes the last field of that name.
-/

namespace ContextAtlas

/-- A JSON value. A number that is written as an integer is kept as one; every other finite number
is a mantissa times a power of ten. -/
inductive Json where
  | null
  | bool (value : Bool)
  | integer (value : Int)
  | decimal (mantissa exponent : Int)
  | notFinite
  | string (value : String)
  | array (items : List Json)
  | object (fields : List (String × Json))

namespace Json

/-- The value of the last field of a name. -/
def lastField? (name : String) : List (String × Json) → Option Json
  | [] => none
  | (key, value) :: r =>
    match lastField? name r with
    | some v => some v
    | none => if key = name then some value else none

theorem sizeOf_lt_of_lastField {name : String} {fields : List (String × Json)} {value : Json}
    (h : lastField? name fields = some value) : sizeOf value < sizeOf fields := by
  induction fields with
  | nil => simp [lastField?] at h
  | cons field r ih =>
    obtain ⟨key, v⟩ := field
    simp only [lastField?] at h
    split at h
    · next w hw =>
      simp only [Option.some.injEq] at h
      subst h
      have := ih hw
      simp only [List.cons.sizeOf_spec]
      omega
    · split at h
      · simp only [Option.some.injEq] at h
        subst h
        simp only [List.cons.sizeOf_spec, Prod.mk.sizeOf_spec]
        omega
      · simp at h

/-- A text, or null in its absence. -/
def ofOption : Option String → Json
  | some s => string s
  | none => null

/-- A list of texts. -/
def ofStrings (texts : List String) : Json := array (texts.map string)

end Json

end ContextAtlas
