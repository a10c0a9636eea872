import MiniDrop.Model.FoldedStacks

/-! # The tree of the differences between two profiles

The nodes are found through an index under the joined path of their frames. Go iterates over a map
in any order, which is an argument here. -/

namespace MiniDrop

/-! ## Differences -/

structure StackDelta where
  frames : List String
  delta : ℤ
  base : ℤ

/-- The entries of both maps, in the orders of the two loops; the second skips what the first
visited. -/
def stackDeltas (stacks2 : StdMap ℤ) (order1 order2 : List (String × ℤ)) : List StackDelta :=
  (order1.map fun (stack, c1) =>
    { frames := framesOf stack.toList
      delta := int64 ((stacks2[stack]?).getD 0 - c1)
      base := c1 }) ++
  (order2.filter fun (stack, _) => stack ∉ order1.map Prod.fst).map fun (stack, c2) =>
    { frames := framesOf stack.toList, delta := c2, base := 0 }

/-! ## The nodes -/

/-- A node, with the positions of its children among all nodes. -/
structure DiffNode where
  name : String
  selfDelta : ℤ := 0
  selfValue : ℤ := 0
  children : List ℕ := []

/-- All nodes, of which the root is the first, and their index. -/
structure DiffNodes where
  nodes : List DiffNode := [{ name := "all" }]
  childIndex : StdMap ℕ := ∅

def joinPath (path frame : String) : String := if path = "" then frame else path ++ ";" ++ frame

namespace DiffNodes

/-- The child under this path, which is new if the index does not have the path. -/
def child (t : DiffNodes) (node : ℕ) (path frame : String) : DiffNodes × ℕ :=
  match t.childIndex[path]? with
  | some child => (t, child)
  | none =>
    let child := t.nodes.length
    ({ nodes := (t.nodes.modify node fun n => { n with children := n.children ++ [child] }) ++
        [{ name := frame }]
       childIndex := t.childIndex.insert path child }, child)

/-- Goes down along the frames. -/
def descend : DiffNodes → ℕ → String → List String → DiffNodes × ℕ
  | t, node, _, [] => (t, node)
  | t, node, path, frame :: frames =>
    let path := joinPath path frame
    let (t, node) := t.child node path frame
    t.descend node path frames

def addDelta (t : DiffNodes) (d : StackDelta) : DiffNodes :=
  let (t, node) := t.descend 0 "" d.frames
  { t with
    nodes := t.nodes.modify node fun n =>
      { n with
        selfDelta := int64 (n.selfDelta + d.delta)
        selfValue := int64 (n.selfValue + d.base) } }

def build (deltas : List StackDelta) : DiffNodes := deltas.foldl addDelta {}

end DiffNodes

/-! ## The tree -/

inductive DiffTreeNode where
  | mk (name : String) (selfDelta totalDelta selfValue : ℤ) (children : List DiffTreeNode)

namespace DiffTreeNode

def name : DiffTreeNode → String
  | mk name _ _ _ _ => name

def selfDelta : DiffTreeNode → ℤ
  | mk _ selfDelta _ _ _ => selfDelta

def totalDelta : DiffTreeNode → ℤ
  | mk _ _ totalDelta _ _ => totalDelta

def selfValue : DiffTreeNode → ℤ
  | mk _ _ _ selfValue _ => selfValue

def children : DiffTreeNode → List DiffTreeNode
  | mk _ _ _ _ children => children

end DiffTreeNode

/-- What hangs below a node. A child comes after its parent among the nodes, so there are no more
levels than nodes. -/
def DiffNodes.treeAt (t : DiffNodes) : ℕ → ℕ → DiffTreeNode
  | 0, _ => .mk "" 0 0 0 []
  | levels + 1, i =>
    match t.nodes[i]? with
    | none => .mk "" 0 0 0 []
    | some node =>
      .mk node.name node.selfDelta 0 node.selfValue (node.children.map (t.treeAt levels))

mutual

def computeTotalDelta : DiffTreeNode → DiffTreeNode
  | .mk name selfDelta _ selfValue children =>
    let children := computeTotalDeltas children
    .mk name selfDelta
      (children.foldl (fun total child => int64 (total + child.totalDelta)) selfDelta)
      selfValue children

def computeTotalDeltas : List DiffTreeNode → List DiffTreeNode
  | [] => []
  | child :: children => computeTotalDelta child :: computeTotalDeltas children

end

mutual

def hasNonZeroDelta : DiffTreeNode → Bool
  | .mk _ _ totalDelta _ children => totalDelta ≠ 0 || anyNonZeroDelta children

def anyNonZeroDelta : List DiffTreeNode → Bool
  | [] => false
  | child :: children => hasNonZeroDelta child || anyNonZeroDelta children

end

mutual

def pruneZeroDeltaNodes : DiffTreeNode → DiffTreeNode
  | .mk name selfDelta totalDelta selfValue children =>
    .mk name selfDelta totalDelta selfValue (pruneChildren children)

/-- A child is pruned before it is looked at. -/
def pruneChildren : List DiffTreeNode → List DiffTreeNode
  | [] => []
  | child :: children =>
    let child := pruneZeroDeltaNodes child
    if hasNonZeroDelta child then child :: pruneChildren children else pruneChildren children

end

/-- `nil` is `none`. -/
def buildDiffTree (stacks2 : StdMap ℤ) (order1 order2 : List (String × ℤ)) :
    Option DiffTreeNode :=
  let deltas := stackDeltas stacks2 order1 order2
  if deltas = [] then none
  else
    let t := DiffNodes.build deltas
    some (pruneZeroDeltaNodes (computeTotalDelta (t.treeAt t.nodes.length 0)))

end MiniDrop
