/-!
# Plans

What has to happen to a value of some shape before the dates in it are `Date` objects. A plan is
finite: a named type stands in it by its name, and its own plan is kept in a registry, so that
types may refer to one another in circles.
-/

namespace DateReviver

/-- What has to happen to a value. `nullable` says that null may stand in its place. -/
inductive Plan where
  /-- Nothing. -/
  | primitive
  /-- The value is a date-time string, to be replaced by a `Date`. -/
  | date (nullable : Bool)
  /-- What happens to every value of a named type. -/
  | delegate (typeName : String) (nullable : Bool)
  /-- `item` happens to each item of an array. -/
  | array (item : Plan) (nullable : Bool)
  /-- `values` happens to the value of each entry of a map. -/
  | map (values : Plan) (nullable : Bool)
  /-- Each property has a plan of its own. -/
  | object (properties : List (String × Plan)) (nullable : Bool)
deriving Inhabited

/-- The plan for a value that may also be null. -/
def Plan.orNull : Plan → Plan
  | .primitive => .primitive
  | .date _ => .date true
  | .delegate typeName _ => .delegate typeName true
  | .array item _ => .array item true
  | .map values _ => .map values true
  | .object properties _ => .object properties true

end DateReviver
