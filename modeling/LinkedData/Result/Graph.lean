import LinkedData.Value.Basic

/-!
# Decoded graphs

The nodes of a decoded response refer to each other by position, so cycles are nothing
special. A property that points at a node of the response holds the position of that node;
all other properties hold values.

A node can be turned back into a nested value. A link to a node that is being expanded
already is *cut*: it becomes the node's reference, or its locator if it has none.
-/

namespace LinkedData

/-- A property of a decoded node. -/
inductive Decoded where
  /-- a value -/
  | value (v : Value)
  /-- a link to the node at a position -/
  | link (position : Nat)
  /-- several properties -/
  | list (items : List Decoded)

namespace Decoded

mutual

/-- The value of a property, given what links stand for. -/
def toValue (link : Nat → Value) : Decoded → Value
  | .value v => v
  | .link position => link position
  | .list items => .list (toValues link items)

/-- The values of several properties. -/
def toValues (link : Nat → Value) : List Decoded → List Value
  | [] => []
  | item :: rest => toValue link item :: toValues link rest

end

mutual

/-- The positions that a property links to. -/
def links : Decoded → List Nat
  | .value _ => []
  | .link position => [position]
  | .list items => linksOfItems items

/-- The positions that several properties link to. -/
def linksOfItems : List Decoded → List Nat
  | [] => []
  | item :: rest => links item ++ linksOfItems rest

end

end Decoded

/-- A decoded node. -/
structure DecodedNode where
  /-- its name, if it has one -/
  id : Option Reference
  /-- its properties by local name, in the order of their first mention -/
  properties : Fields Decoded
  /-- the locator it came with -/
  locator : String

namespace DecodedNode

/-- What stands for a node where it is not expanded. -/
def cut (node : DecodedNode) : Value :=
  match node.id with
  | some r => .reference r
  | none => .iri node.locator

/-- The identifier of a node as a property. -/
def idEntry (node : DecodedNode) : Node :=
  match node.id with
  | some r => [(Vocabulary.idKey, .reference r)]
  | none => []

/-- The properties of a node and its identifier, given what links stand for. -/
def expand (node : DecodedNode) (link : Nat → Value) : Value :=
  .node (node.properties.foldl
    (fun fields property => Fields.set property.1 (property.2.toValue link) fields)
    node.idEntry)

/-- The positions that the properties of a node link to. -/
def links (node : DecodedNode) : List Nat :=
  node.properties.flatMap fun property => property.2.links

end DecodedNode

/-- A decoded response. -/
structure ResultGraph where
  /-- the nodes, one for each record -/
  nodes : List DecodedNode
  /-- the positions of the nodes that are listed -/
  topLevel : List Nat

namespace ResultGraph

/-- The node at a position. -/
def get? (g : ResultGraph) (position : Nat) : Option DecodedNode :=
  g.nodes[position]?

/-- The number of listed nodes. -/
def size (g : ResultGraph) : Nat :=
  g.topLevel.length

/-- Is no node listed? -/
def isEmpty (g : ResultGraph) : Bool :=
  g.topLevel.isEmpty

/-- The position of the first node, listed or not, with this name. -/
def find? (g : ResultGraph) (id : Reference) : Option Nat :=
  g.nodes.findIdx? (·.id == some id)

/-- The value of a node, where the nodes on `path` are being expanded. Each step puts a new
node on the path, so one step more than there are nodes is never needed. -/
def valueOn (g : ResultGraph) : Nat → List Nat → Nat → Value
  | 0, _, _ => .null
  | fuel + 1, path, position =>
    match g.get? position with
    | none => .null
    | some node =>
      if path.contains position then node.cut
      else node.expand (g.valueOn fuel (position :: path))

/-- The value of a node. -/
def toValue (g : ResultGraph) (position : Nat) : Value :=
  g.valueOn (g.nodes.length + 1) [] position

/-- The values of the listed nodes. -/
def toValues (g : ResultGraph) : List Value :=
  g.topLevel.map g.toValue

end ResultGraph

end LinkedData
