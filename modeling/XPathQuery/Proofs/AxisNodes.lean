import XPathQuery.Proofs.AxisOrder
import XPathQuery.Proofs.WellFormedTree
import Mathlib.Data.List.Nodup

/-!
The nodes on each axis. What a node has on an axis is stated by parents, kinds and
document order, and in a well-formed tree the lists hold exactly these nodes. What
follows a node branches off to its right and what precedes it to its left. So the
nodes other than attributes fall into the node itself, its ancestors, its descendants
and the nodes before and after it.
-/
namespace XPathQuery

def Axis.partition : List Axis := [.self, .ancestor, .descendant, .following, .preceding]

namespace Tree

def AreSiblings (tree : Tree) (n m : Address) : Prop :=
  ∃ p, tree.IsChild p n ∧ tree.IsChild p m

def OnAxis (tree : Tree) (n m : Address) : Axis → Prop
  | .self => m = n
  | .child => tree.IsChild n m
  | .attribute => tree.IsAttributeOf n m
  | .parent => IsParent n m
  | .descendant => tree.IsDescendant n m
  | .descendantOrSelf => m = n ∨ tree.IsDescendant n m
  | .ancestor => IsAncestor n m
  | .ancestorOrSelf => m = n ∨ IsAncestor n m
  | .followingSibling => tree.AreSiblings n m ∧ n.precedes m
  | .precedingSibling => tree.AreSiblings n m ∧ m.precedes n
  | .following => tree.IsContent m ∧ n.precedes m ∧ ¬ tree.IsDescendant n m
  | .preceding => tree.IsContent m ∧ m.precedes n ∧ ¬ IsAncestor n m

theorem onAxis_preceding_iff (tree : Tree) (n m : Address) :
    tree.OnAxis n m .preceding ↔ tree.IsContent m ∧ Address.LeftOf m n := by
  simp only [OnAxis, isAncestor_iff, Address.precedes_iff]
  constructor
  · intro h
    rcases h with ⟨hm, hbelow | hleft, hnot⟩
    · exact absurd hbelow hnot
    · exact ⟨hm, hleft⟩
  · intro h
    obtain ⟨hm, hleft⟩ := h
    exact ⟨hm, Or.inr hleft, Address.not_below_of_leftOf hleft⟩

section WellFormed
variable {tree : Tree} (hwf : tree.WellFormed)
include hwf

theorem WellFormed.isChild_of_fork (m p : Address) (y : Branch) (s : List Branch)
    (hm : tree.IsContent m) (h : m = s ++ y :: p) : y.isChild = true := by
  subst h
  have hsplit : s ++ y :: p = s ++ [y] ++ p := by simp
  rw [hsplit] at hm
  exact hwf.isChild_of_append (s ++ [y]) p hm.1 hm.2 y (by simp)

theorem WellFormed.mem_descendantsOf_iff (n m : Address) :
    m ∈ tree.descendantsOf n ↔ tree.IsContent m ∧ Address.Below n m := by
  rw [mem_descendantsOf]
  constructor
  · intro h
    obtain ⟨hm, r, hr, hchild, rfl⟩ := h
    refine ⟨⟨hm, ?_⟩, r, hr, rfl⟩
    cases r with
    | nil => exact absurd rfl hr
    | cons b r =>
      have hb := hwf.isAttribute_cons b (r ++ n) hm
      rw [hchild b List.mem_cons_self] at hb
      exact hb
  · intro h
    obtain ⟨hm, r, hr, rfl⟩ := h
    exact ⟨hm.1, r, hr, hwf.isChild_of_append r n hm.1 hm.2, rfl⟩

theorem WellFormed.mem_subtreeOf (n m : Address) (hn : tree.IsContent n) :
    m ∈ tree.subtreeOf n ↔ tree.IsContent m ∧ ∃ r, m = r ++ n := by
  rw [subtreeOf, List.mem_cons, hwf.mem_descendantsOf_iff]
  constructor
  · intro h
    rcases h with rfl | ⟨hm, r, _, rfl⟩
    · exact ⟨hn, [], rfl⟩
    · exact ⟨hm, r, rfl⟩
  · intro h
    obtain ⟨hm, r, rfl⟩ := h
    by_cases hr : r = []
    · exact Or.inl (by simp [hr])
    · exact Or.inr ⟨hm, r, hr, rfl⟩

/-- Without attributes, what branches off to the right of a node lies in the subtree
of a later sibling of it or of an ancestor. -/
theorem WellFormed.mem_followingSubtrees (n m : Address) (hn : tree.IsContent n) :
    m ∈ tree.followingSubtrees n ↔ tree.IsContent m ∧ Address.LeftOf n m := by
  induction n with
  | nil =>
    simp only [followingSubtrees, List.not_mem_nil, false_iff]
    exact fun h => Address.not_nil_leftOf m h.2
  | cons b p ih =>
    have hchild : b.isChild = true := hwf.isChild_of_fork _ p b [] hn rfl
    rcases b with i | i
    · cases hchild
    rw [followingSubtrees, List.mem_append, ih (hwf.isContent_parent _ p hn.1),
      Address.leftOf_cons, List.mem_flatMap]
    constructor
    · intro h
      rcases h with ⟨a, ha, hm⟩ | h
      · obtain ⟨ha, j, hij, rfl⟩ := (mem_followingSiblings_child tree p a i hn.2).mp ha
        have hacontent : tree.IsContent (.child j :: p) := ⟨ha, hwf.isAttribute_cons _ p ha⟩
        obtain ⟨hm, s, rfl⟩ := (hwf.mem_subtreeOf _ m hacontent).mp hm
        exact ⟨hm, Or.inr ⟨.child j, s, hij, rfl⟩⟩
      · exact ⟨h.1, Or.inl h.2⟩
    · intro h
      rcases h with ⟨hm, h | ⟨y, s, hy, rfl⟩⟩
      · exact Or.inr ⟨hm, h⟩
      · have hychild := hwf.isChild_of_fork _ p y s hm rfl
        rcases y with j | j
        · cases hychild
        have ha := mem_addresses_of_append tree s _ hm.1
        have hacontent : tree.IsContent (.child j :: p) := ⟨ha, hwf.isAttribute_cons _ p ha⟩
        have hsibling := (mem_followingSiblings_child tree p _ i hn.2).mpr ⟨ha, j, hy, rfl⟩
        have hsubtree := (hwf.mem_subtreeOf _ _ hacontent).mpr ⟨hm, s, rfl⟩
        exact Or.inl ⟨.child j :: p, hsibling, hsubtree⟩

/-- What branches off to the left of any node, attributes among them, lies in the
subtree of an earlier sibling of it or of an ancestor. -/
theorem WellFormed.mem_precedingSubtrees (n m : Address) (hn : n ∈ tree.addresses) :
    m ∈ tree.precedingSubtrees n ↔ tree.IsContent m ∧ Address.LeftOf m n := by
  induction n with
  | nil =>
    simp only [precedingSubtrees, List.not_mem_nil, false_iff]
    exact fun h => Address.not_leftOf_nil m h.2
  | cons b p ih =>
    rw [precedingSubtrees, List.mem_append, ih (mem_addresses_of_append tree [b] p hn),
      Address.cons_leftOf, List.mem_flatMap]
    constructor
    · intro h
      rcases h with ⟨a, ha, hm⟩ | h
      · rcases b with i | i
        · cases ha
        have hi := hwf.isAttribute_cons _ p hn
        obtain ⟨ha, j, hji, rfl⟩ := (mem_precedingSiblings_child tree p a i hi).mp ha
        have hacontent : tree.IsContent (.child j :: p) := ⟨ha, hwf.isAttribute_cons _ p ha⟩
        obtain ⟨hm, s, rfl⟩ := (hwf.mem_subtreeOf _ m hacontent).mp (List.mem_reverse.mp hm)
        exact ⟨hm, Or.inr ⟨.child j, s, hji, rfl⟩⟩
      · exact ⟨h.1, Or.inl h.2⟩
    · intro h
      rcases h with ⟨hm, h | ⟨y, s, hy, rfl⟩⟩
      · exact Or.inr ⟨hm, h⟩
      · have hychild := hwf.isChild_of_fork _ p y s hm rfl
        rcases y with j | j
        · cases hychild
        rcases b with i | i
        · exact absurd hy (Branch.not_child_lt_attribute j i)
        have ha := mem_addresses_of_append tree s _ hm.1
        have hacontent : tree.IsContent (.child j :: p) := ⟨ha, hwf.isAttribute_cons _ p ha⟩
        refine Or.inl ⟨.child j :: p, ?_, ?_⟩
        · have hi := hwf.isAttribute_cons _ p hn
          exact (mem_precedingSiblings_child tree p _ i hi).mpr ⟨ha, j, hy, rfl⟩
        · exact List.mem_reverse.mpr ((hwf.mem_subtreeOf _ _ hacontent).mpr ⟨hm, s, rfl⟩)

/-- Before an attribute comes what comes before its element, and after it the content
of the element and what comes after that. -/
theorem WellFormed.mem_followingNodes (n m : Address) (hn : n ∈ tree.addresses) :
    m ∈ tree.followingNodes n ↔ tree.IsContent m ∧ Address.LeftOf n m := by
  unfold followingNodes
  cases hattribute : tree.isAttribute n with
  | false =>
    simpa using hwf.mem_followingSubtrees n m ⟨hn, hattribute⟩
  | true =>
    cases n with
    | nil => simpa [Address.parent?, followingSubtrees] using fun _ => Address.not_nil_leftOf m
    | cons b p =>
      have hp := hwf.isContent_parent b p hn
      rw [hwf.isAttribute_cons b p hn] at hattribute
      rcases b with i | i
      · simp only [Address.parent?, if_true, followingSubtrees, followingSiblings,
          List.flatMap_nil, List.nil_append, List.mem_append, hwf.mem_descendantsOf_iff,
          hwf.mem_followingSubtrees p m hp, Address.leftOf_cons]
        constructor
        · intro h
          rcases h with ⟨hm, hbelow⟩ | ⟨hm, hleft⟩
          · obtain ⟨s, y, rfl⟩ := Address.exists_of_below hbelow
            have hy := hwf.isChild_of_fork _ p y s hm rfl
            rcases y with j | j
            · cases hy
            · exact ⟨hm, Or.inr ⟨_, s, Branch.attribute_lt_child i j, rfl⟩⟩
          · exact ⟨hm, Or.inl hleft⟩
        · intro h
          rcases h with ⟨hm, hleft | ⟨y, s, _, rfl⟩⟩
          · exact Or.inr ⟨hm, hleft⟩
          · exact Or.inl ⟨hm, Address.below_append_cons s y p⟩
      · cases hattribute

theorem WellFormed.areSiblings_iff (n m : Address) :
    tree.AreSiblings n m ↔
      n ∈ tree.addresses ∧ m ∈ tree.addresses ∧
        ∃ i j p, n = .child i :: p ∧ m = .child j :: p := by
  constructor
  · intro h
    obtain ⟨p, hn, hm⟩ := h
    obtain ⟨hn, i, rfl⟩ := (hwf.isChild_iff p n).mp hn
    obtain ⟨hm, j, rfl⟩ := (hwf.isChild_iff p m).mp hm
    exact ⟨hn, hm, i, j, p, rfl, rfl⟩
  · intro h
    obtain ⟨hn, hm, i, j, p, rfl, rfl⟩ := h
    exact ⟨p, (hwf.isChild_iff p _).mpr ⟨hn, i, rfl⟩, (hwf.isChild_iff p _).mpr ⟨hm, j, rfl⟩⟩

theorem WellFormed.mem_followingSiblings (n m : Address) (hn : n ∈ tree.addresses) :
    m ∈ tree.followingSiblings n ↔ tree.AreSiblings n m ∧ n.precedes m := by
  rw [hwf.areSiblings_iff]
  constructor
  · intro h
    obtain ⟨i, j, p, rfl, rfl, hij⟩ := exists_of_mem_followingSiblings tree n m h
    have hi := hwf.isAttribute_cons _ p hn
    have hm := ((mem_followingSiblings_child tree p _ i hi).mp h).1
    exact ⟨⟨hn, hm, i, j, p, rfl, rfl⟩, (Address.cons_precedes_cons_iff _ _ p).mpr hij⟩
  · intro h
    obtain ⟨⟨_, hm, i, j, p, rfl, rfl⟩, h⟩ := h
    have hi := hwf.isAttribute_cons _ p hn
    exact (mem_followingSiblings_child tree p _ i hi).mpr
      ⟨hm, j, (Address.cons_precedes_cons_iff _ _ p).mp h, rfl⟩

theorem WellFormed.mem_precedingSiblings (n m : Address) (hn : n ∈ tree.addresses) :
    m ∈ tree.precedingSiblings n ↔ tree.AreSiblings n m ∧ m.precedes n := by
  rw [hwf.areSiblings_iff]
  constructor
  · intro h
    obtain ⟨i, j, p, rfl, rfl, hji⟩ := exists_of_mem_precedingSiblings tree n m h
    have hi := hwf.isAttribute_cons _ p hn
    have hm := ((mem_precedingSiblings_child tree p _ i hi).mp h).1
    exact ⟨⟨hn, hm, i, j, p, rfl, rfl⟩, (Address.cons_precedes_cons_iff _ _ p).mpr hji⟩
  · intro h
    obtain ⟨⟨_, hm, i, j, p, rfl, rfl⟩, h⟩ := h
    have hi := hwf.isAttribute_cons _ p hn
    exact (mem_precedingSiblings_child tree p _ i hi).mpr
      ⟨hm, j, (Address.cons_precedes_cons_iff _ _ p).mp h, rfl⟩

theorem WellFormed.onAxis_following_iff (n m : Address) :
    tree.OnAxis n m .following ↔ tree.IsContent m ∧ Address.LeftOf n m := by
  simp only [OnAxis, hwf.isDescendant_iff, Address.precedes_iff]
  constructor
  · intro h
    rcases h with ⟨hm, hbelow | hleft, hnot⟩
    · exact absurd ⟨hm, hbelow⟩ hnot
    · exact ⟨hm, hleft⟩
  · intro h
    obtain ⟨hm, hleft⟩ := h
    exact ⟨hm, Or.inr hleft, fun h => Address.not_below_of_leftOf hleft h.2⟩

theorem WellFormed.mem_attributeAxis (n m : Address) :
    m ∈ tree.axisNodes .attribute n ↔ tree.IsAttributeOf n m := by
  rw [axisNodes, hwf.isAttributeOf_iff, ← mem_attributesOf]
  split
  · rfl
  · rename_i hkind
    simp only [List.not_mem_nil, false_iff]
    intro h
    obtain ⟨hm, i, rfl⟩ := (mem_attributesOf tree n m).mp h
    obtain ⟨t, ht⟩ := (mem_addresses tree _).mp hm
    obtain ⟨q, hq, hb⟩ := at?_of_cons tree t _ n ht
    have hmem : t ∈ q.attributes := List.mem_of_getElem? hb
    have howner := (hwf n q hq).owner (List.ne_nil_of_mem hmem)
    exact hkind (by simp [kind?, label?, hq, howner])

/-- An axis holds the nodes it is defined by. -/
theorem WellFormed.mem_axisNodes (n m : Address) (axis : Axis) (hn : n ∈ tree.addresses) :
    m ∈ tree.axisNodes axis n ↔ tree.OnAxis n m axis := by
  cases axis with
  | self => simp [axisNodes, OnAxis]
  | child => exact (mem_childrenOf tree n m).trans (hwf.isChild_iff n m).symm
  | «attribute» => exact hwf.mem_attributeAxis n m
  | parent => simp [axisNodes, OnAxis, IsParent]
  | descendant =>
    exact (hwf.mem_descendantsOf_iff n m).trans (hwf.isDescendant_iff n m).symm
  | descendantOrSelf =>
    simp only [axisNodes, subtreeOf, OnAxis, List.mem_cons, hwf.mem_descendantsOf_iff,
      hwf.isDescendant_iff]
  | ancestor => exact (Address.mem_ancestors n m).trans (isAncestor_iff n m).symm
  | ancestorOrSelf =>
    simp only [axisNodes, OnAxis, List.mem_cons, Address.mem_ancestors, isAncestor_iff]
  | followingSibling => exact hwf.mem_followingSiblings n m hn
  | precedingSibling => exact hwf.mem_precedingSiblings n m hn
  | following =>
    exact (hwf.mem_followingNodes n m hn).trans (hwf.onAxis_following_iff n m).symm
  | preceding =>
    exact (hwf.mem_precedingSubtrees n m hn).trans (onAxis_preceding_iff tree n m).symm

/-- Axes do not lead out of the tree. -/
theorem WellFormed.mem_addresses_of_onAxis (n m : Address) (axis : Axis)
    (hn : n ∈ tree.addresses) (h : tree.OnAxis n m axis) : m ∈ tree.addresses := by
  have hdescendant (h : tree.IsDescendant n m) : m ∈ tree.addresses :=
    ((hwf.isDescendant_iff n m).mp h).1.1
  have hancestor (h : IsAncestor n m) : m ∈ tree.addresses :=
    mem_addresses_of_below ((isAncestor_iff n m).mp h) hn
  cases axis with
  | self =>
    obtain rfl : m = n := h
    exact hn
  | child => exact h.1.1
  | «attribute» => exact h.1
  | parent => exact hancestor (Relation.TransGen.single h)
  | descendant => exact hdescendant h
  | descendantOrSelf =>
    rcases h with rfl | h
    · exact hn
    · exact hdescendant h
  | ancestor => exact hancestor h
  | ancestorOrSelf =>
    rcases h with rfl | h
    · exact hn
    · exact hancestor h
  | followingSibling =>
    obtain ⟨⟨p, _, hm⟩, _⟩ := h
    exact hm.1.1
  | precedingSibling =>
    obtain ⟨⟨p, _, hm⟩, _⟩ := h
    exact hm.1.1
  | following => exact h.1.1
  | preceding => exact h.1.1

/-- A content node is the node itself, or an ancestor, or a descendant, or branches off
to one side. -/
theorem WellFormed.mem_partition_iff (n m : Address) (hn : tree.IsContent n) :
    (∃ axis ∈ Axis.partition, m ∈ tree.axisNodes axis n) ↔ tree.IsContent m := by
  simp only [Axis.partition, List.mem_cons, List.not_mem_nil, or_false, exists_eq_or_imp,
    exists_eq_left, hwf.mem_axisNodes n m _ hn.1]
  rw [hwf.onAxis_following_iff, onAxis_preceding_iff]
  simp only [OnAxis, isAncestor_iff, hwf.isDescendant_iff]
  constructor
  · intro h
    rcases h with rfl | habove | ⟨hm, _⟩ | ⟨hm, _⟩ | ⟨hm, _⟩
    · exact hn
    · exact ⟨mem_addresses_of_below habove hn.1, hwf.isAttribute_of_below m n hn.1 habove⟩
    · exact hm
    · exact hm
    · exact hm
  · intro hm
    rcases Address.eq_or_below_or_leftOf n m with h | h | h | h | h
    · exact Or.inl h.symm
    · exact Or.inr (Or.inr (Or.inl ⟨hm, h⟩))
    · exact Or.inr (Or.inl h)
    · exact Or.inr (Or.inr (Or.inr (Or.inl ⟨hm, h⟩)))
    · exact Or.inr (Or.inr (Or.inr (Or.inr ⟨hm, h⟩)))

/-- The order of two nodes, and whether one is above the other, tells them apart. -/
theorem WellFormed.partition_disjoint (n : Address) (hn : n ∈ tree.addresses) :
    Axis.partition.Pairwise fun a b =>
      (tree.axisNodes a n).Disjoint (tree.axisNodes b n) := by
  have hself : ¬ n.precedes n := Address.precedes_irrefl n
  have habove (m : Address) (h : IsAncestor n m) : m.precedes n :=
    Address.precedes_of_below ((isAncestor_iff n m).mp h)
  have hbelow (m : Address) (h : tree.IsDescendant n m) : n.precedes m :=
    Address.precedes_of_below ((hwf.isDescendant_iff n m).mp h).2
  have hasymm (m : Address) (h : m.precedes n) : ¬ n.precedes m :=
    Address.not_precedes_of_precedes h
  simp only [Axis.partition, List.pairwise_cons, List.mem_cons, List.not_mem_nil, or_false,
    forall_eq_or_imp, forall_eq, List.disjoint_left, hwf.mem_axisNodes n _ _ hn, OnAxis]
  refine ⟨⟨?_, ?_, ?_, ?_⟩, ⟨?_, ?_, ?_⟩, ⟨?_, ?_⟩, ?_, by simp⟩
  · exact fun h => hself (habove n h)
  · exact fun h => hself (hbelow n h)
  · exact fun h => hself h.2.1
  · exact fun h => hself h.2.1
  · intro m h h'
    exact hasymm m (habove m h) (hbelow m h')
  · intro m h hfollowing
    obtain ⟨_, h', _⟩ := hfollowing
    exact hasymm m (habove m h) h'
  · intro m h hpreceding
    obtain ⟨_, _, h'⟩ := hpreceding
    exact h' h
  · intro m h hfollowing
    obtain ⟨_, _, h'⟩ := hfollowing
    exact h' h
  · intro m h hpreceding
    obtain ⟨_, h', _⟩ := hpreceding
    exact hasymm m h' (hbelow m h)
  · intro m hfollowing hpreceding
    exact hasymm m hpreceding.2.1 hfollowing.2.1

end WellFormed

/-- Every axis of every node of a well-formed tree lists exactly the nodes it is
defined by, each once, in document order or, on a reverse axis, against it. From a
node other than an attribute, the axes of `Axis.partition` share out the nodes that
are no attributes. -/
theorem axisNodes_exact (tree : Tree) (hwf : tree.WellFormed) (n : Address)
    (hn : n ∈ tree.addresses) :
    tree.addresses.Pairwise Address.precedes ∧
    (∀ axis,
      (∀ m, m ∈ tree.axisNodes axis n ↔ tree.OnAxis n m axis) ∧
      (tree.axisNodes axis n).Nodup ∧
      (axis.isReverse = false → (tree.axisNodes axis n).Pairwise Address.precedes) ∧
      (axis.isReverse = true →
        (tree.axisNodes axis n).Pairwise fun a b => b.precedes a)) ∧
    (tree.IsContent n →
      (∀ m, (∃ axis ∈ Axis.partition, m ∈ tree.axisNodes axis n) ↔ tree.IsContent m) ∧
      Axis.partition.Pairwise fun a b =>
        (tree.axisNodes a n).Disjoint (tree.axisNodes b n)) := by
  refine ⟨tree.addresses_sorted, fun axis => ⟨?_, ?_, ?_, ?_⟩, fun hcontent => ⟨?_, ?_⟩⟩
  · exact fun m => hwf.mem_axisNodes n m axis hn
  · exact axisNodes_nodup tree n axis
  · exact axisNodes_sorted tree n axis
  · exact axisNodes_sorted_reverse tree n axis
  · exact fun m => hwf.mem_partition_iff n m hcontent
  · exact hwf.partition_disjoint n hn

/-- A list of things to do: the second item, an attribute, carries its state. -/
def sampleTree : Tree :=
  let label (kind : NodeKind) (value : String) : Label := ⟨kind, none, none, value, []⟩
  .node (label .root "") []
    [.node (label .element "") []
      [.node (label .text "one") [] [],
        .node (label .element "")
          [.node (label .attribute "done") [] []]
          [.node (label .text "two") [] []],
        .node (label .comment "three") [] []]]

/-- The content of an element follows its attribute. -/
theorem axisNodes_exact_attribute :
    sampleTree.WellFormed ∧ [.attribute 0, .child 1, .child 0] ∈ sampleTree.addresses ∧
      sampleTree.OnAxis [.attribute 0, .child 1, .child 0] [.child 0, .child 1, .child 0]
        .following := by
  refine ⟨by decide, by decide, ?_⟩
  obtain ⟨_, hexact, _⟩ := axisNodes_exact sampleTree (by decide)
    [.attribute 0, .child 1, .child 0] (by decide)
  exact ((hexact .following).1 _).mp (by decide)

end Tree

end XPathQuery
