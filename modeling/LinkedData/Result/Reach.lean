import LinkedData.Result.Decode

/-!
# What can be reached

The nodes of a decoded graph to which links lead, in any number of steps, from the listed
ones.
-/

namespace LinkedData.ResultGraph

/-- The positions that the properties of a node link to. -/
def linksAt (g : ResultGraph) (position : Nat) : List Nat :=
  match g.get? position with
  | some node => node.links
  | none => []

/-- Is the position among some, or one link away from them? -/
def isNext (g : ResultGraph) (positions : List Nat) (position : Nat) : Bool :=
  positions.contains position || positions.any fun other => (g.linksAt other).contains position

/-- Some positions, and those one link away, in order. -/
def widen (g : ResultGraph) (positions : List Nat) : List Nat :=
  (List.range g.nodes.length).filter (g.isNext positions)

/-- Some positions, and those at most so many links away. -/
def within (g : ResultGraph) (positions : List Nat) : Nat → List Nat
  | 0 => positions
  | steps + 1 => g.within (g.widen positions) steps

/-- The positions that can be reached from the listed nodes, in order. A shortest way passes
no node twice, so it is not longer than there are nodes. -/
def reachable (g : ResultGraph) : List Nat :=
  g.within g.topLevel g.nodes.length

end LinkedData.ResultGraph
