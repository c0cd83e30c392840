/-!
# Schemas

The keywords of a JSON Schema that decide where dates are: types, references, containers,
`anyOf`, formats and the three ways to say that a value may be null.
-/

namespace DateReviver.OpenApi

/-- The keyword `type`: one type name, or several of which a value has one. -/
inductive TypeKeyword where
  | one (name : String)
  | several (names : List String)
deriving DecidableEq

/-- The keywords of a schema object, over the schemas `σ` that stand inside it. -/
structure Keywords (σ : Type) where
  type : Option TypeKeyword
  reference : Option String
  /-- The properties of an object, in the order of the document. -/
  properties : Option (List (String × σ))
  items : Option σ
  anyOf : Option (List σ)
  additionalProperties : Option σ
  format : Option String
  nullable : Option Bool

/-- A schema: `true` or `false`, or an object of keywords. -/
inductive Schema where
  | boolean (value : Bool)
  | object (keywords : Keywords Schema)

/-- Whether a schema admits null alone. -/
def Schema.isNullType : Schema → Bool
  | .object { type := some (.one "null"), .. } => true
  | _ => false

namespace Keywords

/-- Whether null is admitted: by the flag, by a member of `anyOf`, or by a name in `type`. -/
def isNullable (k : Keywords Schema) : Bool :=
  k.nullable == some true
  || (k.anyOf.getD []).any Schema.isNullType
  || match k.type with
    | some (.several names) => names.contains "null"
    | _ => false

/-- The other member of an `anyOf` that has a null member and exactly one other. -/
def unwrapNullable (k : Keywords Schema) : Option Schema :=
  match k.anyOf with
  | none => none
  | some members =>
      if members.any Schema.isNullType then
        match members.filter (fun member => !member.isNullType) with
        | [inner] => some inner
        | _ => none
      else none

/-- The type of values other than null. -/
def primaryType (k : Keywords Schema) : Option String :=
  match k.type with
  | some (.one name) => some name
  | some (.several names) => names.find? (· != "null")
  | none => none

/-- Whether values are objects: by their type or, without one, by keywords of objects. -/
def isObject (k : Keywords Schema) : Bool :=
  match k.primaryType with
  | some name => name == "object"
  | none => k.properties.isSome || k.additionalProperties.isSome

/-- The schema of the values of a map. `false` admits no further entry and so says nothing. -/
def mapValues (k : Keywords Schema) : Option Schema :=
  match k.additionalProperties with
  | some (.boolean false) => none
  | values => values

end Keywords

section Size

variable {k : Keywords Schema} {inner : Schema}

theorem sizeOf_items_lt (h : k.items = some inner) :
    sizeOf inner < sizeOf (Schema.object k) := by
  cases k
  simp only at h
  subst h
  simp
  omega

theorem sizeOf_properties_lt {properties : List (String × Schema)}
    (h : k.properties = some properties) :
    sizeOf properties < sizeOf (Schema.object k) := by
  cases k
  simp only at h
  subst h
  simp
  omega

theorem sizeOf_mapValues_lt (h : k.mapValues = some inner) :
    sizeOf inner < sizeOf (Schema.object k) := by
  cases k with
  | mk type reference properties items anyOf additionalProperties format nullable =>
      have hvalues : additionalProperties = some inner := by
        unfold Keywords.mapValues at h
        split at h
        · exact absurd h (by simp)
        · exact h
      subst hvalues
      simp
      omega

theorem mem_anyOf_of_unwrapNullable (h : k.unwrapNullable = some inner) :
    ∃ members, k.anyOf = some members ∧ inner ∈ members := by
  unfold Keywords.unwrapNullable at h
  split at h
  · exact absurd h (by simp)
  · rename_i members hmembers
    split at h
    · split at h
      · rename_i found hfilter
        cases h
        have hmem : inner ∈ members.filter (fun member => !member.isNullType) := by
          simp [hfilter]
        exact ⟨members, hmembers, (List.mem_filter.1 hmem).1⟩
      · exact absurd h (by simp)
    · exact absurd h (by simp)

theorem sizeOf_unwrapNullable_lt (h : k.unwrapNullable = some inner) :
    sizeOf inner < sizeOf (Schema.object k) := by
  obtain ⟨members, hmembers, hmem⟩ := mem_anyOf_of_unwrapNullable h
  have hlt := List.sizeOf_lt_of_mem hmem
  cases k
  simp only at hmembers
  subst hmembers
  simp
  omega

end Size

end DateReviver.OpenApi
