import DateReviver.TypeScript.Syntax
import DateReviver.Proofs.OrderedMap

/-!
# Values of a run

Plain data as a response has it, and the dates that a run puts into it. Data is a tree: no two
places share a value, so a change at one place is seen at no other. An object has its own fields. At
a name where it has none it is read what all objects inherit from one ancestor: functions under some
names, the ancestor itself under another, and nothing under every other name. What the statements of
a module never do to a value is a fault of its own, apart from the one that matters, reading from
nothing.
-/

namespace DateReviver.TypeScript

/-- A value: data, the date made of a value, or what objects inherit. A number is known by its
numeral. -/
inductive Value where
  | undefined
  | null
  | boolean (value : Bool)
  | number (numeral : String)
  | text (value : String)
  | date (source : Value)
  | array (items : List Value)
  | object (fields : List (String × Value))
  /-- A function that every object inherits under a name. -/
  | inherited (name : String)
  /-- The object that every other object inherits from. -/
  | ancestor
deriving Inhabited

/-- The place of a value in an array or in an object. -/
inductive Key where
  | index (position : Nat)
  | name (name : String)
deriving DecidableEq

/-- Why a run stops. -/
inductive Fault where
  /-- A property, an element, the length or the keys of `undefined` or null were asked for. -/
  | nothingRead
  /-- The step is none of those that are described. -/
  | unsupported
  /-- The fuel of the run is used up. -/
  | exhausted
deriving DecidableEq

/-- The names of the functions that every object inherits. -/
def inheritedFunctions : List String :=
  ["constructor", "hasOwnProperty", "isPrototypeOf", "propertyIsEnumerable", "toLocaleString",
    "toString", "valueOf", "__defineGetter__", "__defineSetter__", "__lookupGetter__",
    "__lookupSetter__"]

/-- The names under which something is read from every object. -/
def inheritedNames : List String :=
  "__proto__" :: inheritedFunctions

namespace Value

/-- What is read at a name from an object that has no field of its own there. -/
def inheritedAt (name : String) : Value :=
  if name = "__proto__" then .ancestor
  else if name ∈ inheritedFunctions then .inherited name
  else .undefined

/-- What is at a place of a value. -/
def get : Value → Key → Except Fault Value
  | .undefined, _ | .null, _ => .error .nothingRead
  | .array items, .index position => .ok (items[position]?.getD .undefined)
  | .object fields, .name name => .ok ((fields.lookup name).getD (inheritedAt name))
  | .ancestor, .name name => .ok (if name = "__proto__" then .null else inheritedAt name)
  | _, _ => .error .unsupported

/-- Put a value at a place of another. Under a name that it inherits an object gets a field of its
own, but for the name of the ancestor: there it would change what it inherits. -/
def put : Value → Key → Value → Except Fault Value
  | .undefined, _, _ | .null, _, _ => .error .nothingRead
  | .array items, .index position, value =>
      if position < items.length then .ok (.array (items.set position value))
      else .error .unsupported
  | .object fields, .name name, value =>
      if name = "__proto__" ∧ (fields.lookup name).isNone then .error .unsupported
      else .ok (.object (OrderedMap.put name value fields))
  | _, _, _ => .error .unsupported

/-- The length of an array. -/
def length : Value → Except Fault Nat
  | .undefined | .null => .error .nothingRead
  | .array items => .ok items.length
  | _ => .error .unsupported

/-- The names of the fields of an object. -/
def keys : Value → Except Fault (List String)
  | .undefined | .null => .error .nothingRead
  | .object fields => .ok (fields.map Prod.fst)
  | _ => .error .unsupported

/-- Nothing is there to be read from. -/
def IsNothing (value : Value) : Prop :=
  value = .undefined ∨ value = .null

theorem IsNothing.get {value : Value} (h : value.IsNothing) (key : Key) :
    value.get key = .error .nothingRead := by
  rcases h with rfl | rfl <;> rfl

/-! ## Places -/

section Items

variable (before after : List Value) (value other : Value)

theorem get_array_middle :
    (array (before ++ value :: after)).get (.index before.length) = .ok value := by
  simp [get]

theorem put_array_middle :
    (array (before ++ value :: after)).put (.index before.length) other
      = .ok (array (before ++ other :: after)) := by
  simp [put]

end Items

section Fields

variable (fields : List (String × Value)) (name : String) (value other : Value)

theorem get_object_put :
    (object (OrderedMap.put name value fields)).get (.name name) = .ok value := by
  simp [get, OrderedMap.lookup_put]

theorem put_object_put :
    (object (OrderedMap.put name value fields)).put (.name name) other
      = .ok (object (OrderedMap.put name other fields)) := by
  have hown : (OrderedMap.put name value fields).lookup name = some value := by
    rw [OrderedMap.lookup_put, if_pos rfl]
  rw [put, if_neg (by simp [hown]), OrderedMap.put_put]

end Fields

/-! ## Fields that are missing -/

section Missing

variable {fields : List (String × Value)} {name : String}

theorem ne_proto_of_mem (hname : name ∈ inheritedFunctions) : name ≠ "__proto__" := by
  rintro rfl
  exact absurd hname (by decide)

theorem inheritedAt_function (hname : name ∈ inheritedFunctions) :
    inheritedAt name = .inherited name := by
  rw [inheritedAt, if_neg (ne_proto_of_mem hname), if_pos hname]

theorem inheritedAt_eq_undefined (hname : name ∉ inheritedNames) :
    inheritedAt name = .undefined := by
  rw [inheritedNames, List.mem_cons, not_or] at hname
  rw [inheritedAt, if_neg hname.1, if_neg hname.2]

theorem get_object_missing (h : fields.lookup name = none) :
    (object fields).get (.name name) = .ok (inheritedAt name) := by
  rw [get, h, Option.getD_none]

/-- Where an object inherits a function it can have a field of its own as well. -/
theorem put_object_function (hname : name ∈ inheritedFunctions) (value : Value) :
    (object fields).put (.name name) value = .ok (object (OrderedMap.put name value fields)) := by
  rw [put, if_neg fun h => ne_proto_of_mem hname h.1]

end Missing

end Value

end DateReviver.TypeScript
