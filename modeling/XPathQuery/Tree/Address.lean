import XPathQuery.Tree.Basic

/-!
Addresses of nodes. A node is named by the branches that lead to it, the last
one first, so the address of its parent is the tail and the root of the tree
has the empty address. Looking up a node that does not exist gives nothing.
-/
namespace XPathQuery

inductive Branch
  | attribute (index : Nat)
  | child (index : Nat)
deriving DecidableEq, Repr

/-- The branches from the root to a node, innermost first. -/
abbrev Address := List Branch

namespace Address

def parent? : Address → Option Address
  | [] => none
  | _ :: parent => some parent

/-- The nodes above a node, nearest first. -/
def ancestors : Address → List Address
  | [] => []
  | _ :: parent => parent :: ancestors parent

end Address

namespace Tree

/-- The tree at the end of one branch. -/
def branch? (tree : Tree) : Branch → Option Tree
  | .attribute i => tree.attributes[i]?
  | .child i => tree.children[i]?

/-- The tree whose top node has the given address. -/
def at? (tree : Tree) : Address → Option Tree
  | [] => some tree
  | branch :: parent => (tree.at? parent).bind (branch? · branch)

def label? (tree : Tree) (address : Address) : Option Label := (tree.at? address).map label

def kind? (tree : Tree) (address : Address) : Option NodeKind :=
  (tree.label? address).map Label.kind

def attributesOf (tree : Tree) (address : Address) : List Address :=
  match tree.at? address with
  | some found => (List.range found.attributes.length).map fun i => .attribute i :: address
  | none => []

def childrenOf (tree : Tree) (address : Address) : List Address :=
  match tree.at? address with
  | some found => (List.range found.children.length).map fun i => .child i :: address
  | none => []

/-- The first element among the children of a node. -/
def childElement? (tree : Tree) (address : Address) : Option Address :=
  (tree.childrenOf address).find? fun child => tree.kind? child == some .element

def stringValueOf (tree : Tree) (address : Address) : String :=
  match tree.at? address with
  | some found => found.stringValue
  | none => ""

mutual

/-- The addresses below the top node of `tree`, attributes left out, when the top
node itself has the given address. -/
def descendantsFrom (address : Address) : Tree → List Address
  | node _ _ children => descendantsFromList address 0 children

def descendantsFromList (address : Address) (index : Nat) : List Tree → List Address
  | [] => []
  | tree :: rest =>
      (.child index :: address) ::
        (descendantsFrom (.child index :: address) tree ++
          descendantsFromList address (index + 1) rest)

end

/-- The descendants of a node in document order. -/
def descendantsOf (tree : Tree) (address : Address) : List Address :=
  match tree.at? address with
  | some found => descendantsFrom address found
  | none => []

mutual

/-- Every address in a tree: a node, then its attributes, then its children. -/
def addressesFrom (address : Address) : Tree → List Address
  | node _ attributes children =>
      address :: (addressesFromList address Branch.attribute 0 attributes ++
        addressesFromList address Branch.child 0 children)

def addressesFromList (address : Address) (branch : Nat → Branch) (index : Nat) :
    List Tree → List Address
  | [] => []
  | tree :: rest =>
      addressesFrom (branch index :: address) tree ++
        addressesFromList address branch (index + 1) rest

end

/-- Every address of the tree in document order, attributes included. -/
def addresses (tree : Tree) : List Address := addressesFrom [] tree

/-- Every address of the tree in document order, attributes left out. -/
def nodeAddresses (tree : Tree) : List Address := [] :: descendantsFrom [] tree

end Tree

end XPathQuery
