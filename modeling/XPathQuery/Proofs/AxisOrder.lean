import XPathQuery.Tree.Axis
import XPathQuery.Proofs.TreeAddresses

/-!
The order of the nodes on each axis. Siblings branch off from one another, so their
subtrees follow one another in document order, and what lies below a sibling after a
node comes before all that follows the parent. Every forward axis is in document
order and every reverse axis against it, in trees of any shape.
-/
namespace XPathQuery

namespace Tree

theorem childrenOf_eq_map (tree : Tree) (n : Address) :
    ∃ k, tree.childrenOf n = (List.range k).map (fun i => .child i :: n) ∧
      ∀ i, .child i :: n ∈ tree.addresses ↔ i < k := by
  unfold childrenOf
  cases hn : tree.at? n with
  | none => exact ⟨0, rfl, by simp [mem_addresses, at?, hn]⟩
  | some t => exact ⟨t.children.length, rfl, by
      simp [mem_addresses, at?, hn, branch?, ← Option.isSome_iff_exists]⟩

theorem attributesOf_eq_map (tree : Tree) (n : Address) :
    ∃ k, tree.attributesOf n = (List.range k).map (fun i => .attribute i :: n) ∧
      ∀ i, .attribute i :: n ∈ tree.addresses ↔ i < k := by
  unfold attributesOf
  cases hn : tree.at? n with
  | none => exact ⟨0, rfl, by simp [mem_addresses, at?, hn]⟩
  | some t => exact ⟨t.attributes.length, rfl, by
      simp [mem_addresses, at?, hn, branch?, ← Option.isSome_iff_exists]⟩

private theorem range_leftOf (n : Address) (branch : Nat → Branch) (k : Nat)
    (hbranch : ∀ i j, i < j → branch i < branch j) :
    ((List.range k).map fun i => branch i :: n).Pairwise Address.LeftOf := by
  rw [List.pairwise_map]
  refine List.pairwise_lt_range.imp ?_
  intro i j hij
  exact ⟨n, branch i, branch j, [], [], hbranch i j hij, rfl, rfl⟩

theorem childrenOf_leftOf (tree : Tree) (n : Address) :
    (tree.childrenOf n).Pairwise Address.LeftOf := by
  obtain ⟨k, hk, _⟩ := childrenOf_eq_map tree n
  rw [hk]
  exact range_leftOf n .child k fun _ _ h => h

theorem attributesOf_leftOf (tree : Tree) (n : Address) :
    (tree.attributesOf n).Pairwise Address.LeftOf := by
  obtain ⟨k, hk, _⟩ := attributesOf_eq_map tree n
  rw [hk]
  exact range_leftOf n .attribute k fun _ _ h => h

private theorem mem_map_range (tree : Tree) (n m : Address) (branch : Nat → Branch) (k : Nat)
    (hk : ∀ i, branch i :: n ∈ tree.addresses ↔ i < k) :
    m ∈ (List.range k).map (fun i => branch i :: n) ↔
      m ∈ tree.addresses ∧ ∃ i, m = branch i :: n := by
  rw [List.mem_map]
  constructor
  · intro h
    obtain ⟨i, hi, rfl⟩ := h
    exact ⟨(hk i).mpr (List.mem_range.mp hi), i, rfl⟩
  · intro h
    obtain ⟨hm, i, rfl⟩ := h
    exact ⟨i, List.mem_range.mpr ((hk i).mp hm), rfl⟩

theorem mem_childrenOf (tree : Tree) (n m : Address) :
    m ∈ tree.childrenOf n ↔ m ∈ tree.addresses ∧ ∃ i, m = .child i :: n := by
  obtain ⟨k, hk, hmem⟩ := childrenOf_eq_map tree n
  rw [hk]
  exact mem_map_range tree n m .child k hmem

theorem mem_attributesOf (tree : Tree) (n m : Address) :
    m ∈ tree.attributesOf n ↔ m ∈ tree.addresses ∧ ∃ i, m = .attribute i :: n := by
  obtain ⟨k, hk, hmem⟩ := attributesOf_eq_map tree n
  rw [hk]
  exact mem_map_range tree n m .attribute k hmem

theorem mem_drop_childrenOf (tree : Tree) (p m : Address) (i : Nat) :
    m ∈ (tree.childrenOf p).drop (i + 1) ↔
      m ∈ tree.addresses ∧ ∃ j, i < j ∧ m = .child j :: p := by
  obtain ⟨k, hk, hmem⟩ := childrenOf_eq_map tree p
  rw [hk, ← List.map_drop, List.range_eq_range', List.drop_range', List.mem_map]
  constructor
  · intro h
    obtain ⟨j, hj, rfl⟩ := h
    rw [List.mem_range'_1] at hj
    exact ⟨(hmem j).mpr (by omega), j, by omega, rfl⟩
  · intro h
    obtain ⟨hm, j, hij, rfl⟩ := h
    have hj := (hmem j).mp hm
    exact ⟨j, List.mem_range'_1.mpr (by omega), rfl⟩

theorem mem_take_childrenOf (tree : Tree) (p m : Address) (i : Nat) :
    m ∈ (tree.childrenOf p).take i ↔ m ∈ tree.addresses ∧ ∃ j, j < i ∧ m = .child j :: p := by
  obtain ⟨k, hk, hmem⟩ := childrenOf_eq_map tree p
  rw [hk, ← List.map_take, List.take_range, List.mem_map]
  constructor
  · intro h
    obtain ⟨j, hj, rfl⟩ := h
    rw [List.mem_range] at hj
    exact ⟨(hmem j).mpr (by omega), j, by omega, rfl⟩
  · intro h
    obtain ⟨hm, j, hij, rfl⟩ := h
    have hj := (hmem j).mp hm
    exact ⟨j, List.mem_range.mpr (by omega), rfl⟩

theorem exists_append_of_mem_subtreeOf (tree : Tree) (n m : List Branch)
    (h : m ∈ tree.subtreeOf n) : ∃ r : List Branch, m = r ++ n := by
  rcases List.mem_cons.mp h with rfl | h
  · exact ⟨[], rfl⟩
  · obtain ⟨_, r, _, _, rfl⟩ := (mem_descendantsOf tree n m).mp h
    exact ⟨r, rfl⟩

/-- Subtrees of nodes from left to right are in document order. -/
theorem subtrees_sorted (tree : Tree) (nodes : List Address)
    (h : nodes.Pairwise Address.LeftOf) :
    (nodes.flatMap tree.subtreeOf).Pairwise Address.precedes := by
  rw [List.pairwise_flatMap]
  refine ⟨fun n _ => subtreeOf_sorted tree n, h.imp ?_⟩
  intro a b hab x hx y hy
  obtain ⟨r, rfl⟩ := exists_append_of_mem_subtreeOf tree a x hx
  obtain ⟨s, rfl⟩ := exists_append_of_mem_subtreeOf tree b y hy
  exact Address.precedes_of_leftOf (Address.leftOf_append r s hab)

/-- Subtrees of nodes from right to left, each from its end, are against it. -/
theorem reverse_subtrees_sorted (tree : Tree) (nodes : List Address)
    (h : nodes.Pairwise fun a b => Address.LeftOf b a) :
    (nodes.flatMap fun n => (tree.subtreeOf n).reverse).Pairwise
      fun a b => b.precedes a := by
  rw [List.pairwise_flatMap]
  refine ⟨fun n _ => List.pairwise_reverse.mpr (subtreeOf_sorted tree n), h.imp ?_⟩
  intro a b hab x hx y hy
  obtain ⟨r, rfl⟩ := exists_append_of_mem_subtreeOf tree a x (List.mem_reverse.mp hx)
  obtain ⟨s, rfl⟩ := exists_append_of_mem_subtreeOf tree b y (List.mem_reverse.mp hy)
  exact Address.precedes_of_leftOf (Address.leftOf_append s r hab)

theorem followingSiblings_leftOf (tree : Tree) (n : Address) :
    (tree.followingSiblings n).Pairwise Address.LeftOf := by
  unfold followingSiblings
  split
  · split
    · exact List.Pairwise.nil
    · exact (childrenOf_leftOf tree _).sublist (List.drop_sublist _ _)
  · exact List.Pairwise.nil

theorem precedingSiblings_leftOf (tree : Tree) (n : Address) :
    (tree.precedingSiblings n).Pairwise fun a b => Address.LeftOf b a := by
  unfold precedingSiblings
  split
  · split
    · exact List.Pairwise.nil
    · exact List.pairwise_reverse.mpr ((childrenOf_leftOf tree _).sublist (List.take_sublist _ _))
  · exact List.Pairwise.nil

/-- A sibling after a node is the child of the same parent at a later place. -/
theorem exists_of_mem_followingSiblings (tree : Tree) (n m : Address)
    (h : m ∈ tree.followingSiblings n) :
    ∃ i j p, n = .child i :: p ∧ m = .child j :: p ∧ i < j := by
  unfold followingSiblings at h
  split at h
  · rename_i i p
    split at h
    · cases h
    · obtain ⟨_, j, hij, rfl⟩ := (mem_drop_childrenOf tree p m i).mp h
      exact ⟨i, j, p, rfl, rfl, hij⟩
  · cases h

/-- A sibling before a node is the child of the same parent at an earlier place. -/
theorem exists_of_mem_precedingSiblings (tree : Tree) (n m : Address)
    (h : m ∈ tree.precedingSiblings n) :
    ∃ i j p, n = .child i :: p ∧ m = .child j :: p ∧ j < i := by
  unfold precedingSiblings at h
  split at h
  · rename_i i p
    split at h
    · cases h
    · obtain ⟨_, j, hji, rfl⟩ := (mem_take_childrenOf tree p m i).mp (List.mem_reverse.mp h)
      exact ⟨i, j, p, rfl, rfl, hji⟩
  · cases h

theorem leftOf_of_mem_followingSubtrees (tree : Tree) (n m : Address)
    (h : m ∈ tree.followingSubtrees n) : Address.LeftOf n m := by
  induction n with
  | nil => cases h
  | cons b p ih =>
    rw [followingSubtrees, List.mem_append] at h
    rw [Address.leftOf_cons]
    rcases h with h | h
    · obtain ⟨a, ha, hm⟩ := List.mem_flatMap.mp h
      obtain ⟨s, rfl⟩ := exists_append_of_mem_subtreeOf tree a m hm
      obtain ⟨i, j, q, hb, rfl, hij⟩ := exists_of_mem_followingSiblings tree _ _ ha
      obtain ⟨rfl, rfl⟩ := List.cons.inj hb
      exact Or.inr ⟨.child j, s, hij, rfl⟩
    · exact Or.inl (ih h)

theorem leftOf_of_mem_precedingSubtrees (tree : Tree) (n m : Address)
    (h : m ∈ tree.precedingSubtrees n) : Address.LeftOf m n := by
  induction n with
  | nil => cases h
  | cons b p ih =>
    rw [precedingSubtrees, List.mem_append] at h
    rw [Address.cons_leftOf]
    rcases h with h | h
    · obtain ⟨a, ha, hm⟩ := List.mem_flatMap.mp h
      obtain ⟨s, rfl⟩ := exists_append_of_mem_subtreeOf tree a m (List.mem_reverse.mp hm)
      obtain ⟨i, j, q, hb, rfl, hji⟩ := exists_of_mem_precedingSiblings tree _ _ ha
      obtain ⟨rfl, rfl⟩ := List.cons.inj hb
      exact Or.inr ⟨.child j, s, hji, rfl⟩
    · exact Or.inl (ih h)

/-- Whatever stands below a sibling after a node stands below its parent, and so
before all that follows the parent. -/
theorem followingSubtrees_sorted (tree : Tree) (n : Address) :
    (tree.followingSubtrees n).Pairwise Address.precedes := by
  induction n with
  | nil => exact List.Pairwise.nil
  | cons b p ih =>
    rw [followingSubtrees, List.pairwise_append]
    refine ⟨subtrees_sorted tree _ (followingSiblings_leftOf tree _), ih, ?_⟩
    intro x hx y hy
    obtain ⟨a, ha, hx⟩ := List.mem_flatMap.mp hx
    obtain ⟨r, rfl⟩ := exists_append_of_mem_subtreeOf tree a x hx
    obtain ⟨i, j, q, hb, rfl, _⟩ := exists_of_mem_followingSiblings tree _ _ ha
    obtain ⟨_, rfl⟩ := List.cons.inj hb
    have hleft := leftOf_of_mem_followingSubtrees tree p y hy
    exact Address.precedes_of_leftOf
      (Address.leftOf_append r [] (Address.leftOf_append [_] [] hleft))

theorem precedingSubtrees_sorted (tree : Tree) (n : Address) :
    (tree.precedingSubtrees n).Pairwise fun a b => b.precedes a := by
  induction n with
  | nil => exact List.Pairwise.nil
  | cons b p ih =>
    rw [precedingSubtrees, List.pairwise_append]
    refine ⟨reverse_subtrees_sorted tree _ (precedingSiblings_leftOf tree _), ih, ?_⟩
    intro x hx y hy
    obtain ⟨a, ha, hx⟩ := List.mem_flatMap.mp hx
    obtain ⟨r, rfl⟩ := exists_append_of_mem_subtreeOf tree a x (List.mem_reverse.mp hx)
    obtain ⟨i, j, q, hb, rfl, _⟩ := exists_of_mem_precedingSiblings tree _ _ ha
    obtain ⟨_, rfl⟩ := List.cons.inj hb
    have hleft := leftOf_of_mem_precedingSubtrees tree p y hy
    exact Address.precedes_of_leftOf
      (Address.leftOf_append [] r (Address.leftOf_append [] [_] hleft))

theorem mem_precedingSiblings_child (tree : Tree) (p m : Address) (i : Nat)
    (h : tree.isAttribute (.child i :: p) = false) :
    m ∈ tree.precedingSiblings (.child i :: p) ↔
      m ∈ tree.addresses ∧ ∃ j, j < i ∧ m = .child j :: p := by
  rw [precedingSiblings, if_neg (by simp [h]), List.mem_reverse, mem_take_childrenOf]

theorem mem_followingSiblings_child (tree : Tree) (p m : Address) (i : Nat)
    (h : tree.isAttribute (.child i :: p) = false) :
    m ∈ tree.followingSiblings (.child i :: p) ↔
      m ∈ tree.addresses ∧ ∃ j, i < j ∧ m = .child j :: p := by
  rw [followingSiblings, if_neg (by simp [h]), mem_drop_childrenOf]

theorem followingSubtrees_of_isAttribute (tree : Tree) (b : Branch) (p : Address)
    (h : tree.isAttribute (b :: p) = true) :
    tree.followingSubtrees (b :: p) = tree.followingSubtrees p := by
  rcases b with i | i <;> simp [followingSubtrees, followingSiblings, h]

theorem followingNodes_sorted (tree : Tree) (n : Address) :
    (tree.followingNodes n).Pairwise Address.precedes := by
  unfold followingNodes
  cases hattribute : tree.isAttribute n with
  | false => simpa using followingSubtrees_sorted tree n
  | true =>
    cases n with
    | nil => simpa [Address.parent?] using followingSubtrees_sorted tree []
    | cons b p =>
      simp only [Address.parent?, if_true]
      rw [followingSubtrees_of_isAttribute tree b p hattribute, List.pairwise_append]
      refine ⟨descendantsOf_sorted tree p, followingSubtrees_sorted tree p, ?_⟩
      intro x hx y hy
      obtain ⟨_, r, _, _, rfl⟩ := (mem_descendantsOf tree p x).mp hx
      have hleft := leftOf_of_mem_followingSubtrees tree p y hy
      exact Address.precedes_of_leftOf (Address.leftOf_append r [] hleft)

/-- Forward axes are in document order. -/
theorem axisNodes_sorted (tree : Tree) (n : Address) (axis : Axis)
    (h : axis.isReverse = false) : (tree.axisNodes axis n).Pairwise Address.precedes := by
  have hchildren {p : Address} : (tree.childrenOf p).Pairwise Address.precedes :=
    (childrenOf_leftOf tree p).imp Address.precedes_of_leftOf
  cases axis with
  | child => exact hchildren
  | descendant => exact descendantsOf_sorted tree n
  | descendantOrSelf => exact subtreeOf_sorted tree n
  | «attribute» =>
    simp only [axisNodes]
    split
    · exact (attributesOf_leftOf tree n).imp Address.precedes_of_leftOf
    · exact List.Pairwise.nil
  | self => exact List.pairwise_singleton _ n
  | followingSibling =>
    exact (followingSiblings_leftOf tree n).imp Address.precedes_of_leftOf
  | following => exact followingNodes_sorted tree n
  | parent => cases h
  | ancestor => cases h
  | ancestorOrSelf => cases h
  | precedingSibling => cases h
  | preceding => cases h

/-- Reverse axes are against document order. -/
theorem axisNodes_sorted_reverse (tree : Tree) (n : Address) (axis : Axis)
    (h : axis.isReverse = true) :
    (tree.axisNodes axis n).Pairwise fun a b => b.precedes a := by
  cases axis with
  | parent => cases n <;> simp [axisNodes, Address.parent?]
  | ancestor => exact (Address.ancestors_sorted n).of_cons
  | ancestorOrSelf => exact Address.ancestors_sorted n
  | precedingSibling =>
    exact (precedingSiblings_leftOf tree n).imp Address.precedes_of_leftOf
  | preceding => exact precedingSubtrees_sorted tree n
  | child => cases h
  | descendant => cases h
  | descendantOrSelf => cases h
  | «attribute» => cases h
  | self => cases h
  | followingSibling => cases h
  | following => cases h

theorem axisNodes_nodup (tree : Tree) (n : Address) (axis : Axis) :
    (tree.axisNodes axis n).Nodup := by
  cases h : axis.isReverse with
  | false => exact (axisNodes_sorted tree n axis h).imp Address.ne_of_precedes
  | true =>
    refine (axisNodes_sorted_reverse tree n axis h).imp ?_
    exact fun h => (Address.ne_of_precedes h).symm

end Tree

end XPathQuery
