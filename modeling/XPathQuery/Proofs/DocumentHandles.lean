import XPathQuery.Proofs.HandleOrder
import XPathQuery.Proofs.DocumentTrees

/-!
Handles on the nodes of a document. The document numbers a parent before its children and
a subtree before the next sibling, so its nodes other than attributes are numbered in
document order. The handles on all its nodes, attributes included, then compare as the
nodes do, and a list of handles that is sorted and cleared of repetitions is the node-set
of their nodes.
-/
namespace XPathQuery

namespace Address

def owner : Address → Address
  | .attribute _ :: element => element
  | address => address

def place : Address → Nat
  | .attribute i :: _ => i + 1
  | _ => 0

theorem owner_handle (number : Address → Nat) (a : Address) :
    (a.handle number).owner = number a.owner := by
  rcases a with _ | ⟨_ | _, p⟩ <;> rfl

theorem place_handle (number : Address → Nat) (a : Address) :
    (a.handle number).place = a.place := by
  rcases a with _ | ⟨_ | _, p⟩ <;> rfl

def branchesTo : Nat → List Branch
  | 0 => []
  | i + 1 => [.attribute i]

theorem branchesTo_append_owner (a : Address) : branchesTo a.place ++ a.owner = a := by
  rcases a with _ | ⟨_ | _, p⟩ <;> rfl

theorem eq_of_place {a b : Address} (howner : a.owner = b.owner) (hplace : a.place = b.place) :
    a = b := by
  rw [← a.branchesTo_append_owner, ← b.branchesTo_append_owner, howner, hplace]

/-- Under one owner, nodes are in the order of their places. -/
theorem precedes_of_place {a b : Address} (howner : a.owner = b.owner)
    (hplace : a.place < b.place) : a.precedes b := by
  rw [← a.branchesTo_append_owner, ← b.branchesTo_append_owner, howner]
  cases hb : b.place with
  | zero => exact absurd (hb ▸ hplace) (Nat.not_lt_zero _)
  | succ j =>
    cases ha : a.place with
    | zero => exact precedes_of_below (below_append_cons [] _ _)
    | succ i =>
      rw [ha, hb] at hplace
      exact (cons_precedes_cons_iff _ _ _).mpr (Nat.lt_of_succ_lt_succ hplace)

/-- When an owner precedes another that is no attribute, so do the nodes that belong to it. -/
theorem precedes_of_owner {a b : Address} (hb : ∀ c ∈ b.owner, c.isChild = true)
    (h : a.owner.precedes b.owner) : a.precedes b := by
  rw [← a.branchesTo_append_owner, ← b.branchesTo_append_owner]
  rcases (precedes_iff _ _).mp h with hbelow | hleft
  · obtain ⟨r, x, hx⟩ := exists_of_below hbelow
    have hchild : x.isChild = true := hb x (by simp [hx])
    rw [hx, ← List.append_assoc]
    cases a.place with
    | zero => exact precedes_of_below (below_append_cons (branchesTo b.place ++ r) x a.owner)
    | succ i =>
      rcases x with j | j
      · cases hchild
      · exact precedes_of_leftOf
          ⟨a.owner, .attribute i, .child j, [], _, Branch.attribute_lt_child i j, rfl, rfl⟩
  · exact precedes_of_leftOf (leftOf_append _ _ hleft)

end Address

namespace Tree

theorem mem_nodeAddresses (tree : Tree) (a : Address) :
    a ∈ tree.nodeAddresses ↔ a ∈ tree.addresses ∧ ∀ b ∈ a, b.isChild = true := by
  rw [nodeAddresses, List.mem_cons, mem_descendantsFrom, mem_addresses]
  constructor
  · intro h
    rcases h with rfl | ⟨r, t, _, hr, rfl, ht⟩
    · exact ⟨⟨tree, rfl⟩, fun b hb => absurd hb List.not_mem_nil⟩
    · rw [List.append_nil]
      exact ⟨⟨t, ht⟩, hr⟩
  · intro h
    obtain ⟨⟨t, ht⟩, hchild⟩ := h
    by_cases ha : a = []
    · exact Or.inl ha
    · exact Or.inr ⟨a, t, ha, hchild, (List.append_nil a).symm, ht⟩

theorem nodeAddresses_of_append {tree : Tree} (r a : List Branch)
    (h : r ++ a ∈ tree.nodeAddresses) : a ∈ tree.nodeAddresses := by
  rw [mem_nodeAddresses] at h ⊢
  exact ⟨mem_addresses_of_append tree r a h.1, fun b hb => h.2 b (List.mem_append_right r hb)⟩

/-- Above the last branch to a node, all are those of children. -/
theorem WellFormed.isChild_of_mem {tree : Tree} (hwf : tree.WellFormed) {x : Branch}
    {p : Address} (h : x :: p ∈ tree.addresses) : ∀ b ∈ p, b.isChild = true := by
  intro b hb
  obtain ⟨r, q, rfl⟩ := List.append_of_mem hb
  exact hwf.isChild_of_below b q _ h ⟨x :: r, List.cons_ne_nil _ _, rfl⟩

/-- In a well-formed tree no owner is an attribute. -/
theorem WellFormed.owner_mem {tree : Tree} (hwf : tree.WellFormed) {a : Address}
    (ha : a ∈ tree.addresses) : a.owner ∈ tree.nodeAddresses := by
  rw [mem_nodeAddresses]
  rcases a with _ | ⟨i | i, p⟩
  · exact ⟨ha, fun b hb => absurd hb List.not_mem_nil⟩
  · exact ⟨mem_addresses_of_append tree [.attribute i] p ha, hwf.isChild_of_mem ha⟩
  · exact ⟨ha, List.forall_mem_cons.mpr ⟨rfl, hwf.isChild_of_mem ha⟩⟩

/-- A parent has a smaller number than its child, and all of a subtree, attributes left
out, smaller ones than the siblings after it. -/
structure NumbersInOrder (tree : Tree) (number : Address → Nat) : Prop where
  parent : ∀ p i, .child i :: p ∈ tree.nodeAddresses → number p < number (.child i :: p)
  subtree : ∀ p i j r, i < j → r ++ .child i :: p ∈ tree.nodeAddresses →
    .child j :: p ∈ tree.nodeAddresses → number (r ++ .child i :: p) < number (.child j :: p)

namespace NumbersInOrder
variable {tree : Tree} {number : Address → Nat} (h : tree.NumbersInOrder number)
include h

theorem lt_cons {b : Branch} {p : Address} (hmem : b :: p ∈ tree.nodeAddresses) :
    number p < number (b :: p) := by
  have hchild := ((mem_nodeAddresses tree _).mp hmem).2 b List.mem_cons_self
  rcases b with i | i
  · cases hchild
  · exact h.parent p i hmem

theorem le_append (r a : List Branch) (hmem : r ++ a ∈ tree.nodeAddresses) :
    number a ≤ number (r ++ a) := by
  induction r with
  | nil => exact Nat.le_refl _
  | cons b r ih =>
    exact Nat.le_trans (ih (nodeAddresses_of_append [b] (r ++ a) hmem))
      (Nat.le_of_lt (h.lt_cons hmem))

/-- Nodes other than attributes are numbered in document order. -/
theorem lt_of_precedes {a b : Address} (ha : a ∈ tree.nodeAddresses)
    (hb : b ∈ tree.nodeAddresses) (hab : a.precedes b) : number a < number b := by
  rcases (Address.precedes_iff a b).mp hab with hbelow | hleft
  · obtain ⟨r, x, rfl⟩ := Address.exists_of_below hbelow
    exact Nat.lt_of_lt_of_le (h.lt_cons (nodeAddresses_of_append r (x :: a) hb))
      (h.le_append r (x :: a) hb)
  · obtain ⟨base, x, y, r, s, hxy, rfl, rfl⟩ := hleft
    have hy := nodeAddresses_of_append s (y :: base) hb
    have hxchild := ((mem_nodeAddresses tree _).mp ha).2 x (by simp)
    have hychild := ((mem_nodeAddresses tree _).mp hb).2 y (by simp)
    rcases x with i | i
    · cases hxchild
    rcases y with j | j
    · cases hychild
    exact Nat.lt_of_lt_of_le (h.subtree base i j r hxy ha hy) (h.le_append s _ hb)

theorem eq_of_number_eq {a b : Address} (ha : a ∈ tree.nodeAddresses)
    (hb : b ∈ tree.nodeAddresses) (hab : number a = number b) : a = b := by
  rcases Address.precedes_or_eq_or_precedes a b with h' | h' | h'
  · exact absurd (h.lt_of_precedes ha hb h') (hab ▸ Nat.lt_irrefl _)
  · exact h'
  · exact absurd (h.lt_of_precedes hb ha h') (hab ▸ Nat.lt_irrefl _)

theorem precedes_of_lt {a b : Address} (ha : a ∈ tree.nodeAddresses)
    (hb : b ∈ tree.nodeAddresses) (hab : number a < number b) : a.precedes b := by
  rcases Address.precedes_or_eq_or_precedes a b with h' | rfl | h'
  · exact h'
  · exact absurd hab (Nat.lt_irrefl _)
  · exact absurd (h.lt_of_precedes hb ha h') (Nat.lt_asymm hab)

variable (hwf : tree.WellFormed)
include hwf

theorem handle_injective {a b : Address} (ha : a ∈ tree.addresses) (hb : b ∈ tree.addresses)
    (hab : a.handle number = b.handle number) : a = b := by
  have howner := congrArg Handle.owner hab
  have hplace := congrArg Handle.place hab
  simp only [Address.owner_handle, Address.place_handle] at howner hplace
  exact Address.eq_of_place
    (h.eq_of_number_eq (hwf.owner_mem ha) (hwf.owner_mem hb) howner) hplace

/-- A node precedes those whose handles come after its own. -/
theorem precedes_of_order_lt {a b : Address} (ha : a ∈ tree.addresses)
    (hb : b ∈ tree.addresses) (hab : (a.handle number).order (b.handle number) = .lt) :
    a.precedes b := by
  have hbowner := hwf.owner_mem hb
  rw [Handle.order_eq_lt_iff] at hab
  simp only [Address.owner_handle, Address.place_handle] at hab
  rcases hab with hlt | ⟨heq, hplace⟩
  · exact Address.precedes_of_owner ((mem_nodeAddresses tree _).mp hbowner).2
      (h.precedes_of_lt (hwf.owner_mem ha) hbowner hlt)
  · exact Address.precedes_of_place (h.eq_of_number_eq (hwf.owner_mem ha) hbowner heq) hplace

/-- Handles compare as their nodes do. -/
theorem order_handle {a b : Address} (ha : a ∈ tree.addresses) (hb : b ∈ tree.addresses) :
    (a.handle number).order (b.handle number) = a.compareOrder b := by
  unfold Address.compareOrder
  cases horder : (a.handle number).order (b.handle number) with
  | lt => rw [if_pos (h.precedes_of_order_lt hwf ha hb horder)]
  | eq =>
    rw [Handle.order_eq_eq_iff_same, Handle.same_iff_eq] at horder
    obtain rfl := h.handle_injective hwf ha hb horder
    rw [if_neg (Address.precedes_irrefl a), if_pos rfl]
  | gt =>
    have hgt : (b.handle number).order (a.handle number) = .lt := by
      rw [Handle.order_swap, horder]
      rfl
    have hba := h.precedes_of_order_lt hwf hb ha hgt
    rw [if_neg (Address.not_precedes_of_precedes hba), if_neg (Address.ne_of_precedes hba).symm]

theorem order_handle_of_precedes {a b : Address} (ha : a ∈ tree.addresses)
    (hb : b ∈ tree.addresses) (hab : a.precedes b) :
    (a.handle number).order (b.handle number) = .lt := by
  rw [h.order_handle hwf ha hb, Address.compareOrder, if_pos hab]

theorem ascending_map_handle {nodes : List Address} (hnodes : ∀ a ∈ nodes, a ∈ tree.addresses)
    (hsorted : nodes.Pairwise Address.precedes) :
    Handle.Ascending (nodes.map (Address.handle number)) := by
  rw [Handle.Ascending, List.pairwise_map]
  refine hsorted.imp_of_mem fun ha hb hab => ?_
  exact h.order_handle_of_precedes hwf (hnodes _ ha) (hnodes _ hb) hab

/-- Sorting handles and leaving out repetitions makes the node-set of their nodes. -/
theorem distinct_sorted_map_handle {nodes : List Address}
    (hnodes : ∀ a ∈ nodes, a ∈ tree.addresses) :
    Handle.distinct (Handle.sorted (nodes.map (Address.handle number))) =
      (NodeSet.ofList nodes).map (Address.handle number) := by
  have hascending : Handle.Ascending ((NodeSet.ofList nodes).map (Address.handle number)) :=
    h.ascending_map_handle hwf (fun a ha => hnodes a (NodeSet.mem_ofList.mp ha))
      (NodeSet.ascending_ofList nodes)
  refine (Handle.ascending_distinct_sorted _).eq_of_mem_iff hascending fun a => ?_
  rw [Handle.mem_distinct_sorted, List.mem_map, List.mem_map]
  simp only [NodeSet.mem_ofList]

end NumbersInOrder

theorem number_lt_of_precedes {tree : Tree} {a b : Address} (ha : a ∈ tree.nodeAddresses)
    (hb : b ∈ tree.nodeAddresses) (hab : a.precedes b) : tree.number a < tree.number b := by
  have hsorted : tree.nodeAddresses.Pairwise Address.precedes := subtreeOf_sorted tree []
  by_contra hnot
  rcases Nat.lt_or_eq_of_le (Nat.le_of_not_lt hnot) with hlt | heq
  · have hba := List.pairwise_iff_getElem.mp hsorted _ _ (List.idxOf_lt_length_of_mem hb)
      (List.idxOf_lt_length_of_mem ha) hlt
    rw [List.getElem_idxOf, List.getElem_idxOf] at hba
    exact Address.not_precedes_of_precedes hab hba
  · exact Address.ne_of_precedes hab ((List.idxOf_inj hb).mp heq).symm

/-- Counting the nodes of a tree, attributes left out, numbers them in order. -/
theorem numbersInOrder_number (tree : Tree) : tree.NumbersInOrder tree.number := by
  constructor
  · intro p i h
    exact number_lt_of_precedes (nodeAddresses_of_append [.child i] p h) h
      (Address.precedes_of_below (Address.below_append_cons [] _ p))
  · intro p i j r hij hi hj
    exact number_lt_of_precedes hi hj
      (Address.precedes_of_leftOf ⟨p, .child i, .child j, r, [], hij, rfl, rfl⟩)

end Tree

structure Handle.Ordered : Prop where
  antisymmetric : ∀ a b : Handle, b.order a = (a.order b).swap
  transitive : ∀ a b c : Handle, a.order b = .lt → b.order c = .lt → a.order c = .lt
  total : ∀ a b : Handle, a.same b = false → a.order b = .lt ∨ b.order a = .lt
  equal : ∀ a b : Handle, a.order b = .eq ↔ a.same b = true
  equivalence : Equivalence fun a b : Handle => a.same b = true
  hashed : ∀ a b : Handle, a.same b = true → a.hashed = b.hashed
  ascending : ∀ handles, Ascending (distinct (sorted handles))
  nodup : ∀ handles, (distinct (sorted handles)).Nodup
  mem_iff : ∀ handles (a : Handle), a ∈ distinct (sorted handles) ↔ a ∈ handles

theorem Handle.ordered : Handle.Ordered where
  antisymmetric := order_swap
  transitive _ _ _ := order_trans
  total _ _ := order_total
  equal := order_eq_eq_iff_same
  equivalence := same_equivalence
  hashed _ _ := hashed_of_same
  ascending := ascending_distinct_sorted
  nodup handles := (ascending_distinct_sorted handles).nodup
  mem_iff _ _ := mem_distinct_sorted

def Address.ComesBefore (number : Address → Nat) (a b : Address) : Prop :=
  (a.handle number).order (b.handle number) = .lt

structure Tree.HandlesInOrder (tree : Tree) (number : Address → Nat) : Prop where
  same_node : ∀ a ∈ tree.addresses, ∀ b ∈ tree.addresses,
    (a.handle number).same (b.handle number) = true ↔ a = b
  document_order : ∀ a ∈ tree.addresses, ∀ b ∈ tree.addresses,
    (a.handle number).order (b.handle number) = a.compareOrder b
  listed : tree.addresses.Pairwise (Address.ComesBefore number)
  below : ∀ a, ∀ b ∈ tree.addresses, Address.Below a b → Address.ComesBefore number a b
  attributes : ∀ p i j, .attribute i :: p ∈ tree.addresses → .attribute j :: p ∈ tree.addresses →
    i < j → Address.ComesBefore number (.attribute i :: p) (.attribute j :: p)
  attribute_child : ∀ p i j, .attribute i :: p ∈ tree.addresses → .child j :: p ∈ tree.addresses →
    Address.ComesBefore number (.attribute i :: p) (.child j :: p)
  subtree_sibling : ∀ p i j r, r ++ .child i :: p ∈ tree.addresses →
    .child j :: p ∈ tree.addresses → i < j →
    Address.ComesBefore number (r ++ .child i :: p) (.child j :: p)
  node_set : ∀ nodes : List Address, (∀ a ∈ nodes, a ∈ tree.addresses) →
    Handle.distinct (Handle.sorted (nodes.map (Address.handle number))) =
      (NodeSet.ofList nodes).map (Address.handle number)

theorem Tree.NumbersInOrder.handlesInOrder {tree : Tree} {number : Address → Nat}
    (h : tree.NumbersInOrder number) (hwf : tree.WellFormed) : tree.HandlesInOrder number := by
  have hbefore : ∀ a ∈ tree.addresses, ∀ b ∈ tree.addresses, a.precedes b →
      a.ComesBefore number b :=
    fun a ha b hb => h.order_handle_of_precedes hwf ha hb
  constructor
  · intro a ha b hb
    rw [Handle.same_iff_eq]
    exact ⟨h.handle_injective hwf ha hb, congrArg (Address.handle number)⟩
  · exact fun a ha b hb => h.order_handle hwf ha hb
  · exact tree.addresses_sorted.imp_of_mem fun ha hb => hbefore _ ha _ hb
  · intro a b hb hbelow
    exact hbefore a (mem_addresses_of_below hbelow hb) b hb (Address.precedes_of_below hbelow)
  · intro p i j hi hj hij
    exact hbefore _ hi _ hj ((Address.cons_precedes_cons_iff _ _ p).mpr hij)
  · intro p i j hi hj
    exact hbefore _ hi _ hj
      ((Address.cons_precedes_cons_iff _ _ p).mpr (Branch.attribute_lt_child i j))
  · intro p i j r hi hj hij
    exact hbefore _ hi _ hj
      (Address.precedes_of_leftOf ⟨p, .child i, .child j, r, [], hij, rfl, rfl⟩)
  · exact fun nodes hnodes => h.distinct_sorted_map_handle hwf hnodes

/-- In a parsed document whose parser numbers nodes in order, handles are in a strict total
order, which is document order. -/
theorem Markup.handlesInOrder_of_read {source : String} {tree : Tree}
    (hread : read source = some tree) {number : Address → Nat}
    (hnumber : tree.NumbersInOrder number) : Handle.Ordered ∧ tree.HandlesInOrder number :=
  ⟨Handle.ordered, hnumber.handlesInOrder (isDocument_of_read hread).wellFormed⟩

/-- Attributes and children on two levels, each node given twice and against the order. -/
theorem Markup.handlesInOrder_of_read_nested :
    ∃ tree, read "<r a='1' b='2'><c d='3'>t</c><e/></r>" = some tree ∧
      tree.NumbersInOrder tree.number ∧
      (tree.addresses.map fun a => (a.handle tree.number).hashed) =
        [[0, 0], [0, 1], [1, 1, 0], [1, 1, 1], [0, 2], [1, 2, 0], [0, 3], [0, 4]] ∧
      (let handles := tree.addresses.map (Address.handle tree.number)
       (Handle.distinct (Handle.sorted (handles ++ handles).reverse)).map Handle.hashed =
         handles.map Handle.hashed) ∧
      tree.addresses.Pairwise (Address.ComesBefore tree.number) := by
  obtain ⟨_, tree, -, hread, hhashed, hdistinct⟩ :
      ∃ items tree,
        document "<r a='1' b='2'><c d='3'>t</c><e/></r>".toList = some items ∧
        read "<r a='1' b='2'><c d='3'>t</c><e/></r>" = some tree ∧
        (tree.addresses.map fun a => (a.handle tree.number).hashed) =
          [[0, 0], [0, 1], [1, 1, 0], [1, 1, 1], [0, 2], [1, 2, 0], [0, 3], [0, 4]] ∧
        NodeSet.ofList (tree.addresses ++ tree.addresses).reverse = tree.addresses :=
    exists_of_read (by decide +kernel) (by decide +kernel) (by decide +kernel)
  have hnumber := tree.numbersInOrder_number
  obtain ⟨-, hhandles⟩ := handlesInOrder_of_read hread hnumber
  have hset := hhandles.node_set (tree.addresses ++ tree.addresses).reverse (by simp)
  rw [hdistinct, List.map_reverse, List.map_append] at hset
  exact ⟨tree, hread, hnumber, hhashed, congrArg (List.map Handle.hashed) hset, hhandles.listed⟩

end XPathQuery
