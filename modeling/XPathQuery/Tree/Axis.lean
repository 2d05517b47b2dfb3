import XPathQuery.Tree.Order

/-!
The axes of a node. Every axis lists its nodes by proximity: forward axes in
document order, reverse axes nearest first, against it. Attributes have a
parent but are no child of it, so they have no siblings; what follows an
attribute begins with the content of its element.
-/
namespace XPathQuery

inductive Axis
  | child
  | descendant
  | descendantOrSelf
  | attribute
  | parent
  | ancestor
  | ancestorOrSelf
  | self
  | followingSibling
  | precedingSibling
  | following
  | preceding
deriving DecidableEq, Repr

def Axis.isReverse : Axis → Bool
  | .parent | .ancestor | .ancestorOrSelf | .precedingSibling | .preceding => true
  | _ => false

namespace Tree

def isAttribute (tree : Tree) (address : Address) : Bool :=
  tree.kind? address == some .attribute

def followingSiblings (tree : Tree) : Address → List Address
  | .child i :: parent =>
      if tree.isAttribute (.child i :: parent) then []
      else (tree.childrenOf parent).drop (i + 1)
  | _ => []

/-- The siblings before a node, nearest first. -/
def precedingSiblings (tree : Tree) : Address → List Address
  | .child i :: parent =>
      if tree.isAttribute (.child i :: parent) then []
      else ((tree.childrenOf parent).take i).reverse
  | _ => []

def subtreeOf (tree : Tree) (address : Address) : List Address :=
  address :: tree.descendantsOf address

/-- The subtrees of the siblings after a node and after each of its ancestors. -/
def followingSubtrees (tree : Tree) : Address → List Address
  | [] => []
  | branch :: parent =>
      (tree.followingSiblings (branch :: parent)).flatMap tree.subtreeOf ++
        followingSubtrees tree parent

/-- The subtrees of the siblings before a node and before each of its ancestors,
each from its end. -/
def precedingSubtrees (tree : Tree) : Address → List Address
  | [] => []
  | branch :: parent =>
      (tree.precedingSiblings (branch :: parent)).flatMap
          (fun sibling => (tree.subtreeOf sibling).reverse) ++
        precedingSubtrees tree parent

def followingNodes (tree : Tree) (address : Address) : List Address :=
  let content :=
    if tree.isAttribute address then
      match address.parent? with
      | some parent => tree.descendantsOf parent
      | none => []
    else []
  content ++ tree.followingSubtrees address

/-- The nodes on an axis, by proximity. -/
def axisNodes (tree : Tree) (axis : Axis) (address : Address) : List Address :=
  match axis with
  | .self => [address]
  | .child => tree.childrenOf address
  | .attribute =>
      if tree.kind? address = some .element then tree.attributesOf address else []
  | .descendant => tree.descendantsOf address
  | .descendantOrSelf => tree.subtreeOf address
  | .parent => address.parent?.toList
  | .ancestor => address.ancestors
  | .ancestorOrSelf => address :: address.ancestors
  | .followingSibling => tree.followingSiblings address
  | .precedingSibling => tree.precedingSiblings address
  | .following => tree.followingNodes address
  | .preceding => tree.precedingSubtrees address

end Tree

end XPathQuery
