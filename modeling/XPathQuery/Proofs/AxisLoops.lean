import XPathQuery.Proofs.AxisNodes
import XPathQuery.Proofs.NodeSetUnions
import Mathlib.Data.List.Perm.Basic

/-!
Collecting the nodes of an axis by loops: a walk that keeps the nodes still to be visited on
a stack, with the top at the end; a climb from parent to parent; siblings skipped or taken up
to a node; and the nodes beside a node sorted, and reversed where nearest comes first. What a
walk has still to collect are the subtrees of the nodes on its stack, from the top down. On
the nodes of a well-formed tree the loops list what the recursions over addresses list.
-/
namespace XPathQuery

theorem NodeSet.sorted_eq_of_perm {nodes others : List Address} (h : nodes.Perm others)
    (hothers : Ascending others) : NodeList.sorted Address.compareOrder nodes = others := by
  have hsorted := NodeList.pairwise_sorted Address.compareOrder nodes
  have hascending : others.Pairwise fun a b => (a.compareOrder b).isLE = true :=
    hothers.imp fun hab => (Address.isLE_compareOrder_iff _ _).mpr (Or.inl hab)
  refine List.Perm.eq_of_pairwise ?_ hsorted hascending ((List.mergeSort_perm _ _).trans h)
  intro a b _ _ hab hba
  rcases (Address.isLE_compareOrder_iff a b).mp hab with hab | rfl
  · rcases (Address.isLE_compareOrder_iff b a).mp hba with hba | rfl
    · exact absurd hba (Address.not_precedes_of_precedes hab)
    · rfl
  · rfl

namespace Tree

theorem descendantsFromList_eq_flatMap (tree : Tree) (n : Address) (i : Nat) (ts : List Tree)
    (hts : ∀ j, tree.at? (.child (i + j) :: n) = ts[j]?) :
    descendantsFromList n i ts =
      (List.range' i ts.length).flatMap fun j => tree.subtreeOf (.child j :: n) := by
  induction ts generalizing i with
  | nil => rfl
  | cons t ts ih =>
    have hfirst : tree.at? (.child i :: n) = some t := hts 0
    have hrest := ih (i + 1) fun j => by simpa [Nat.add_assoc, Nat.add_comm 1 j] using hts (j + 1)
    rw [descendantsFromList, hrest, List.length_cons, List.range'_succ, List.flatMap_cons,
      subtreeOf, descendantsOf, hfirst]
    rfl

/-- A subtree is its top node and the subtrees of the children, one after the other. -/
theorem subtreeOf_eq_cons (tree : Tree) (n : Address) :
    tree.subtreeOf n = n :: (tree.childrenOf n).flatMap tree.subtreeOf := by
  rw [subtreeOf, descendantsOf, childrenOf]
  cases hn : tree.at? n with
  | none => rfl
  | some t =>
    obtain ⟨label, attributes, children⟩ := t
    have hat (j : Nat) : tree.at? (.child (0 + j) :: n) = children[j]? := by
      simp [at?, hn, branch?, Tree.children]
    simp only [descendantsFrom, descendantsFromList_eq_flatMap tree n 0 children hat,
      List.range_eq_range', List.flatMap_map]
    rfl

/-- The nodes on a stack with their subtrees, the top of the stack first. -/
def pending (tree : Tree) (stack : List Address) : List Address :=
  stack.reverse.flatMap tree.subtreeOf

/-- When the children of the top take its place, the last one first, the top is all that
is no longer pending. -/
theorem pending_of_getLast? (tree : Tree) {stack : List Address} {n : Address}
    (h : stack.getLast? = some n) :
    tree.pending stack =
      n :: tree.pending (stack.dropLast ++ (tree.childrenOf n).reverse) := by
  have hsplit : stack = stack.dropLast ++ [n] := (List.dropLast_append_getLast? n h).symm
  have hreverse : stack.reverse = n :: stack.dropLast.reverse := by
    rw [hsplit, List.reverse_append, List.dropLast_concat]
    rfl
  rw [pending, pending, hreverse, List.flatMap_cons, subtreeOf_eq_cons tree n,
    List.reverse_append, List.reverse_reverse, List.flatMap_append, List.cons_append]

/-- Visits the node at the end of the stack and then its children, as long as there is one. -/
def walkStack (tree : Tree) (results stack : List Address) : List Address :=
  match _h : stack.getLast? with
  | none => results
  | some n =>
      walkStack tree (results ++ [n]) (stack.dropLast ++ (tree.childrenOf n).reverse)
termination_by (tree.pending stack).length
decreasing_by
  rw [pending_of_getLast? tree _h]
  exact Nat.lt_succ_self _

theorem walkStack_eq (tree : Tree) (results stack : List Address) :
    tree.walkStack results stack = results ++ tree.pending stack := by
  induction results, stack using walkStack.induct tree with
  | case1 results stack h =>
    obtain rfl := List.getLast?_eq_none_iff.mp h
    simp [walkStack, pending]
  | case2 results stack n h ih =>
    rw [walkStack]
    split
    · rename_i hnone
      cases hnone.symm.trans h
    · rename_i m hm
      obtain rfl : n = m := Option.some.inj (h.symm.trans hm)
      rw [ih, tree.pending_of_getLast? h, List.append_assoc, List.singleton_append]

def walkDescendants (tree : Tree) (n : Address) : List Address :=
  tree.walkStack [] (tree.childrenOf n).reverse

theorem walkDescendants_eq (tree : Tree) (n : Address) :
    tree.walkDescendants n = tree.descendantsOf n := by
  have hsubtree := tree.subtreeOf_eq_cons n
  rw [subtreeOf] at hsubtree
  rw [walkDescendants, walkStack_eq, pending, List.reverse_reverse, List.nil_append,
    (List.cons.inj hsubtree).2]

/-- Adds what each node shows that is visited on the way to the root. -/
def climb (visit : Address → List Address) (results : List Address) :
    Option Address → List Address
  | none => results
  | some n => climb visit (results ++ visit n) n.parent?
termination_by current => (current.map List.length).elim 0 (· + 1)
decreasing_by cases n <;> simp [Address.parent?]

theorem climb_eq (visit : Address → List Address) (results : List Address) (n : Address) :
    climb visit results (some n) = results ++ (n :: n.ancestors).flatMap visit := by
  induction n generalizing results with
  | nil => simp [climb, Address.parent?, Address.ancestors]
  | cons b p ih =>
    rw [climb, Address.parent?, ih, List.append_assoc]
    rfl

theorem climb_eq_ancestors (n : Address) : climb (fun p => [p]) [] n.parent? = n.ancestors := by
  cases n with
  | nil => simp [climb, Address.parent?, Address.ancestors]
  | cons b p => simp [Address.parent?, climb_eq, Address.ancestors]

def siblingsAfter (tree : Tree) (n : Address) : List Address :=
  match n.parent? with
  | some parent =>
      if tree.isAttribute n then []
      else ((tree.childrenOf parent).dropWhile (· ≠ n)).drop 1
  | none => []

def siblingsBefore (tree : Tree) (n : Address) : List Address :=
  match n.parent? with
  | some parent =>
      if tree.isAttribute n then []
      else ((tree.childrenOf parent).takeWhile (· ≠ n)).reverse
  | none => []

def walkSubtrees (tree : Tree) (siblings : List Address) : List Address :=
  siblings.flatMap fun sibling => sibling :: tree.walkDescendants sibling

def collectFollowing (tree : Tree) (n : Address) : List Address :=
  let content :=
    if tree.isAttribute n then
      match n.parent? with
      | some parent => tree.walkDescendants parent
      | none => []
    else []
  NodeList.sorted Address.compareOrder
    (climb (fun m => tree.walkSubtrees (tree.siblingsAfter m)) content (some n))

def collectPreceding (tree : Tree) (n : Address) : List Address :=
  (NodeList.sorted Address.compareOrder
    (climb (fun m => tree.walkSubtrees (tree.siblingsBefore m)) [] (some n))).reverse

def collect (tree : Tree) (axis : Axis) (n : Address) : List Address :=
  match axis with
  | .self => [n]
  | .child => tree.childrenOf n
  | .attribute => if tree.kind? n = some .element then tree.attributesOf n else []
  | .descendant => tree.walkDescendants n
  | .descendantOrSelf => n :: tree.walkDescendants n
  | .parent => n.parent?.toList
  | .ancestor => climb (fun p => [p]) [] n.parent?
  | .ancestorOrSelf => n :: climb (fun p => [p]) [] n.parent?
  | .followingSibling => tree.siblingsAfter n
  | .precedingSibling => tree.siblingsBefore n
  | .following => tree.collectFollowing n
  | .preceding => tree.collectPreceding n

theorem walkSubtrees_eq (tree : Tree) (siblings : List Address) :
    tree.walkSubtrees siblings = siblings.flatMap tree.subtreeOf := by
  simp only [walkSubtrees, walkDescendants_eq]
  rfl

theorem followingSubtrees_eq_flatMap (tree : Tree) (n : Address) :
    tree.followingSubtrees n =
      (n :: n.ancestors).flatMap fun m => (tree.followingSiblings m).flatMap tree.subtreeOf := by
  induction n with
  | nil => rfl
  | cons b p ih =>
    rw [followingSubtrees, ih]
    rfl

theorem precedingSubtrees_eq_flatMap (tree : Tree) (n : Address) :
    tree.precedingSubtrees n =
      (n :: n.ancestors).flatMap fun m =>
        (tree.precedingSiblings m).flatMap fun sibling => (tree.subtreeOf sibling).reverse := by
  induction n with
  | nil => rfl
  | cons b p ih =>
    rw [precedingSubtrees, ih]
    rfl

section Siblings
variable (tree : Tree) (p : Address) (i : Nat) (h : .child i :: p ∈ tree.addresses)
include h

/-- A child stands among the children of its parent at the place its branch names. -/
theorem childrenOf_split :
    tree.childrenOf p =
      (tree.childrenOf p).take i ++ (.child i :: p) :: (tree.childrenOf p).drop (i + 1) := by
  obtain ⟨k, hk, hmem⟩ := childrenOf_eq_map tree p
  have hi : i < (tree.childrenOf p).length := by simpa [hk] using (hmem i).mp h
  have hget : (tree.childrenOf p)[i] = .child i :: p := by simp [hk]
  rw [← hget, ← List.drop_eq_getElem_cons hi, List.take_append_drop]

omit h in
theorem ne_of_mem_take (m : Address) (hm : m ∈ (tree.childrenOf p).take i) :
    decide (m ≠ .child i :: p) = true := by
  obtain ⟨_, j, hji, rfl⟩ := (mem_take_childrenOf tree p m i).mp hm
  rw [decide_eq_true_iff]
  intro heq
  cases heq
  exact Nat.lt_irrefl i hji

theorem dropWhile_childrenOf :
    (tree.childrenOf p).dropWhile (· ≠ .child i :: p) =
      (.child i :: p) :: (tree.childrenOf p).drop (i + 1) := by
  nth_rewrite 1 [childrenOf_split tree p i h]
  rw [List.dropWhile_append_of_pos (ne_of_mem_take tree p i)]
  exact List.dropWhile_cons_of_neg (by simp)

theorem takeWhile_childrenOf :
    (tree.childrenOf p).takeWhile (· ≠ .child i :: p) = (tree.childrenOf p).take i := by
  nth_rewrite 1 [childrenOf_split tree p i h]
  rw [List.takeWhile_append_of_pos (ne_of_mem_take tree p i),
    List.takeWhile_cons_of_neg (by simp), List.append_nil]

end Siblings

theorem mem_addresses_of_mem_ancestors (tree : Tree) (n m : Address) (hn : n ∈ tree.addresses)
    (hm : m ∈ n :: n.ancestors) : m ∈ tree.addresses := by
  rcases List.mem_cons.mp hm with rfl | hm
  · exact hn
  · exact mem_addresses_of_below ((Address.mem_ancestors n m).mp hm) hn

section WellFormed
variable {tree : Tree} (hwf : tree.WellFormed)
include hwf

theorem WellFormed.siblingsAfter_eq (n : Address) (hn : n ∈ tree.addresses) :
    tree.siblingsAfter n = tree.followingSiblings n := by
  cases n with
  | nil => rfl
  | cons b p =>
    have hattribute := hwf.isAttribute_cons b p hn
    rcases b with i | i
    · simp only [siblingsAfter, Address.parent?, hattribute]
      rfl
    · simp only [siblingsAfter, Address.parent?, followingSiblings, hattribute,
        dropWhile_childrenOf tree p i hn]
      rfl

theorem WellFormed.siblingsBefore_eq (n : Address) (hn : n ∈ tree.addresses) :
    tree.siblingsBefore n = tree.precedingSiblings n := by
  cases n with
  | nil => rfl
  | cons b p =>
    have hattribute := hwf.isAttribute_cons b p hn
    rcases b with i | i
    · simp only [siblingsBefore, Address.parent?, hattribute]
      rfl
    · simp only [siblingsBefore, Address.parent?, precedingSiblings, hattribute,
        takeWhile_childrenOf tree p i hn]

/-- What follows a node is met in document order already. -/
theorem WellFormed.collectFollowing_eq (n : Address) (hn : n ∈ tree.addresses) :
    tree.collectFollowing n = tree.followingNodes n := by
  have hclimb : (n :: n.ancestors).flatMap (fun m => tree.walkSubtrees (tree.siblingsAfter m)) =
      tree.followingSubtrees n := by
    rw [followingSubtrees_eq_flatMap]
    refine List.flatMap_congr fun m hm => ?_
    rw [walkSubtrees_eq, hwf.siblingsAfter_eq m (mem_addresses_of_mem_ancestors tree n m hn hm)]
  simp only [collectFollowing, climb_eq, hclimb, walkDescendants_eq]
  exact NodeSet.sorted_eq_of_perm (List.Perm.refl _) (followingNodes_sorted tree n)

/-- What precedes a node is met subtree by subtree, each from its top. -/
theorem WellFormed.collectPreceding_eq (n : Address) (hn : n ∈ tree.addresses) :
    tree.collectPreceding n = tree.precedingSubtrees n := by
  have hclimb : List.Perm
      ((n :: n.ancestors).flatMap fun m => tree.walkSubtrees (tree.siblingsBefore m))
      (tree.precedingSubtrees n) := by
    rw [precedingSubtrees_eq_flatMap]
    refine List.Perm.flatMap_left _ fun m hm => ?_
    rw [walkSubtrees_eq, hwf.siblingsBefore_eq m (mem_addresses_of_mem_ancestors tree n m hn hm)]
    exact List.Perm.flatMap_left _ fun sibling _ => (List.reverse_perm _).symm
  have hascending : NodeSet.Ascending (tree.precedingSubtrees n).reverse :=
    List.pairwise_reverse.mpr (precedingSubtrees_sorted tree n)
  rw [collectPreceding, climb_eq, List.nil_append,
    NodeSet.sorted_eq_of_perm (hclimb.trans (List.reverse_perm _).symm) hascending,
    List.reverse_reverse]

/-- From a node of a well-formed tree, the loops list an axis as the recursions do. -/
theorem WellFormed.collect_eq_axisNodes (axis : Axis) (n : Address) (hn : n ∈ tree.addresses) :
    tree.collect axis n = tree.axisNodes axis n := by
  cases axis with
  | self | child | «attribute» | parent => rfl
  | descendant => exact walkDescendants_eq tree n
  | descendantOrSelf => exact congrArg (n :: ·) (walkDescendants_eq tree n)
  | ancestor => exact climb_eq_ancestors n
  | ancestorOrSelf => exact congrArg (n :: ·) (climb_eq_ancestors n)
  | followingSibling => exact hwf.siblingsAfter_eq n hn
  | precedingSibling => exact hwf.siblingsBefore_eq n hn
  | following => exact hwf.collectFollowing_eq n hn
  | preceding => exact hwf.collectPreceding_eq n hn

end WellFormed

end Tree

end XPathQuery
