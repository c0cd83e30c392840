import DateReviver.Yaml.Tag

/-!
# YAML trees

The tree of a document as it is written. An alias stands for a node that bears its number as an
anchor; of several such nodes the last counts, wherever the alias stands.
-/

namespace DateReviver.Yaml

structure Properties where
  anchor : Option Nat
  tag : Option Tag

def Properties.none : Properties :=
  ⟨.none, .none⟩

inductive Node where
  /-- A scalar, and whether it is written without quotes or marks. -/
  | scalar (properties : Properties) (text : String) (plain : Bool)
  | sequence (properties : Properties) (items : List Node)
  | mapping (properties : Properties) (entries : List (Node × Node))
  | aliasTo (number : Nat)

namespace Node

/-- A node of which nothing but its properties is written. -/
def empty (properties : Properties) : Node :=
  scalar properties "" true

mutual

/-- How many marks and scalars a node is written with: a collection has one at either end. -/
def extent : Node → Nat
  | scalar _ _ _ => 1
  | sequence _ items => 2 + itemsExtent items
  | mapping _ entries => 2 + entriesExtent entries
  | aliasTo _ => 1

/-- The marks and scalars of the items of a sequence. -/
def itemsExtent : List Node → Nat
  | [] => 0
  | item :: rest => item.extent + itemsExtent rest

/-- The marks and scalars of the entries of a mapping. -/
def entriesExtent : List (Node × Node) → Nat
  | [] => 0
  | (key, value) :: rest => key.extent + value.extent + entriesExtent rest

end

def numbered (properties : Properties) (node : Node) : List (Nat × Node) :=
  (properties.anchor.map fun number => (number, node)).toList

mutual

/-- The nodes that are anchors by their numbers, in the order in which they begin. -/
def anchors : Node → List (Nat × Node)
  | scalar properties text plain => numbered properties (scalar properties text plain)
  | sequence properties items =>
      numbered properties (sequence properties items) ++ itemsAnchors items
  | mapping properties entries =>
      numbered properties (mapping properties entries) ++ entriesAnchors entries
  | aliasTo _ => []

def itemsAnchors : List Node → List (Nat × Node)
  | [] => []
  | item :: rest => item.anchors ++ itemsAnchors rest

def entriesAnchors : List (Node × Node) → List (Nat × Node)
  | [] => []
  | (key, value) :: rest => key.anchors ++ (value.anchors ++ entriesAnchors rest)

end

end Node

end DateReviver.Yaml
