import XPathQuery.Tree.Address

/-!
Handles on the nodes of a document. The document numbers its nodes, attributes left out;
an attribute is held by the number of its element and its index there. Handles are
compared and hashed by these numbers alone, and a list of handles becomes a node-set by
sorting it and leaving out the neighbours that are equal.
-/
namespace XPathQuery

inductive Handle
  | node (id : Nat)
  | attribute (element index : Nat)
deriving Repr

namespace Handle

/-- Both handles are on one node. -/
def same : Handle → Handle → Bool
  | .node a, .node b => a == b
  | .attribute e i, .attribute f j => e == f && i == j
  | _, _ => false

/-- An attribute comes after its element and before what has a greater number. -/
def order : Handle → Handle → Ordering
  | .node a, .node b => compare a b
  | .attribute e i, .attribute f j => (compare e f).then (compare i j)
  | .node a, .attribute e _ => if a ≤ e then .lt else .gt
  | .attribute e _, .node a => if e < a then .lt else .gt

/-- What a handle feeds to a hash: a tag, then its numbers. -/
def hashed : Handle → List Nat
  | .node id => [0, id]
  | .attribute element index => [1, element, index]

def sorted (handles : List Handle) : List Handle :=
  handles.mergeSort fun a b => (a.order b).isLE

/-- The handles after `last`, those left out that are equal to the one kept before them. -/
def distinctAfter (last : Handle) : List Handle → List Handle
  | [] => []
  | a :: rest => if last.same a then distinctAfter last rest else a :: distinctAfter a rest

/-- Leaves out every handle that is equal to the one kept before it. -/
def distinct : List Handle → List Handle
  | [] => []
  | a :: rest => a :: distinctAfter a rest

end Handle

/-- The handle on a node, when `number` is the numbering of the document. -/
def Address.handle (number : Address → Nat) : Address → Handle
  | .attribute i :: element => .attribute (number element) i
  | address => .node (number address)

/-- The number of a node: how many others, attributes left out, come before it. -/
def Tree.number (tree : Tree) (address : Address) : Nat := tree.nodeAddresses.idxOf address

end XPathQuery
