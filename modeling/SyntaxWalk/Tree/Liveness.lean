/-
Which nodes are alive. A node lives as long as somebody holds it: a handle outside the heap, or an
owning edge in a field of a node that lives itself. Back-references hold nothing. Nodes that own
each other in a cycle hold each other for ever, so the living nodes are the greatest set in which
every node is held; it is reached by taking away, again and again, the nodes that nobody holds.
-/
import SyntaxWalk.Tree.Heap

namespace SyntaxWalk.Heap

/-- A set of nodes of a heap: which of its identities belong to it. -/
abbrev NodeSet := Array Bool

/-- The nodes that a handle, or an owning edge of a node of the set, holds. -/
def supported (heap : Heap) (handles : List NodeId) (set : NodeSet) : NodeSet :=
  let none := Array.replicate heap.size false
  let direct := handles.foldl (fun s id => s.setIfInBounds id true) none
  (List.range heap.size).foldl
    (fun s id =>
      if set.getD id false then
        (heap.fields id).owned.foldl (fun s child => s.setIfInBounds child true) s
      else s)
    direct

/-- Takes away the nodes that nobody holds, at most `rounds` times. Only nodes of the set stay. -/
def prune (heap : Heap) (handles : List NodeId) : Nat → NodeSet → NodeSet
  | 0, set => set
  | rounds + 1, set =>
    let next := (set.zipWith (· && ·) (heap.supported handles set))
    if next = set then set else prune heap handles rounds next

/-- The living nodes, when the given handles are held outside the heap. Each round but the last
takes a node away, so there are no more rounds than nodes. -/
def living (heap : Heap) (handles : List NodeId) : NodeSet :=
  heap.prune handles heap.size (Array.replicate heap.size true)

/-- Whether a node is alive, when the given handles are held outside the heap. -/
def isAlive (heap : Heap) (handles : List NodeId) (id : NodeId) : Bool :=
  (heap.living handles).getD id false

/-- The target of a back-reference or a weak handle, while it is alive. -/
def upgrade? (heap : Heap) (handles : List NodeId) (target : Option NodeId) : Option NodeId :=
  target.filter (heap.isAlive handles)

end SyntaxWalk.Heap
