import XPathQuery.Tree.Axis
import XPathQuery.Proofs.TreeAddresses
import Mathlib.Logic.Relation

/-!
Well-formed trees and the relations between their nodes. In a well-formed tree only
elements have attributes, attributes have no children and are nobody's child. The kind
of a node then agrees with the branch that leads to it, so children, descendants and
ancestors, defined by parents and kinds, can be read off addresses.
-/
namespace XPathQuery

namespace Tree

structure NodeContract (t : Tree) : Prop where
  owner : t.attributes ≠ [] → t.label.kind = .element
  childless : t.label.kind = .attribute → t.children = []
  attribute_kind : ∀ s ∈ t.attributes, s.label.kind = .attribute
  child_kind : ∀ s ∈ t.children, s.label.kind ≠ .attribute

def WellFormed (tree : Tree) : Prop := ∀ a t, tree.at? a = some t → NodeContract t

instance (t : Tree) : Decidable (NodeContract t) :=
  decidable_of_iff
    ((t.attributes ≠ [] → t.label.kind = .element) ∧
      (t.label.kind = .attribute → t.children = []) ∧
      (∀ s ∈ t.attributes, s.label.kind = .attribute) ∧
      (∀ s ∈ t.children, s.label.kind ≠ .attribute))
    ⟨fun ⟨h₁, h₂, h₃, h₄⟩ => ⟨h₁, h₂, h₃, h₄⟩, fun ⟨h₁, h₂, h₃, h₄⟩ => ⟨h₁, h₂, h₃, h₄⟩⟩

theorem wellFormed_iff_addresses (tree : Tree) :
    tree.WellFormed ↔ ∀ a ∈ tree.addresses, ∀ t ∈ tree.at? a, NodeContract t := by
  constructor
  · intro h a _ t ht
    exact h a t ht
  · intro h a t ht
    exact h a ((mem_addresses tree a).mpr ⟨t, ht⟩) t ht

instance (tree : Tree) : Decidable tree.WellFormed :=
  decidable_of_iff _ (wellFormed_iff_addresses tree).symm

theorem isAttribute_of_at? (tree t : Tree) (a : Address) (h : tree.at? a = some t) :
    tree.isAttribute a = decide (t.label.kind = .attribute) := by
  simp [isAttribute, kind?, label?, h, beq_eq_decide]

section WellFormed
variable {tree : Tree} (hwf : tree.WellFormed)
include hwf

/-- The last branch to a node tells whether it is an attribute. -/
theorem WellFormed.isAttribute_cons (b : Branch) (p : Address) (h : b :: p ∈ tree.addresses) :
    tree.isAttribute (b :: p) = !b.isChild := by
  obtain ⟨t, ht⟩ := (mem_addresses tree _).mp h
  obtain ⟨q, hq, hb⟩ := at?_of_cons tree t b p ht
  rw [isAttribute_of_at? tree t _ ht]
  rcases b with i | i
  · have hkind := (hwf p q hq).attribute_kind t (List.mem_of_getElem? hb)
    simp [Branch.isChild, hkind]
  · have hkind := (hwf p q hq).child_kind t (List.mem_of_getElem? hb)
    simp [Branch.isChild, hkind]

/-- Nothing lies below an attribute. -/
theorem WellFormed.isAttribute_parent (b : Branch) (p : Address)
    (h : b :: p ∈ tree.addresses) : tree.isAttribute p = false := by
  obtain ⟨t, ht⟩ := (mem_addresses tree _).mp h
  obtain ⟨q, hq, hb⟩ := at?_of_cons tree t b p ht
  rw [isAttribute_of_at? tree q p hq, decide_eq_false_iff_not]
  intro hkind
  rcases b with i | i
  · have hmem : t ∈ q.attributes := List.mem_of_getElem? hb
    have howner := (hwf p q hq).owner (List.ne_nil_of_mem hmem)
    rw [howner] at hkind
    cases hkind
  · have hmem : t ∈ q.children := List.mem_of_getElem? hb
    rw [(hwf p q hq).childless hkind] at hmem
    cases hmem

theorem WellFormed.isAttribute_of_below (a b : Address) (hb : b ∈ tree.addresses)
    (h : Address.Below a b) : tree.isAttribute a = false := by
  obtain ⟨r, hr, rfl⟩ := h
  rcases List.eq_nil_or_concat r with rfl | ⟨r, x, rfl⟩
  · exact absurd rfl hr
  · rw [List.concat_eq_append, List.append_assoc] at hb
    exact hwf.isAttribute_parent x a (mem_addresses_of_append tree r (x :: a) hb)

/-- Only the last branch to a node can be that of an attribute. -/
theorem WellFormed.isChild_of_below (b : Branch) (p a : Address) (ha : a ∈ tree.addresses)
    (h : Address.Below (b :: p) a) : b.isChild = true := by
  have hattribute := hwf.isAttribute_of_below (b :: p) a ha h
  obtain ⟨r, _, rfl⟩ := h
  rw [hwf.isAttribute_cons b p (mem_addresses_of_append tree r (b :: p) ha)] at hattribute
  simpa using hattribute

/-- All branches on the way to a node that is no attribute are those of children. -/
theorem WellFormed.isChild_of_append (r base : Address) (h : r ++ base ∈ tree.addresses)
    (hcontent : tree.isAttribute (r ++ base) = false) : ∀ b ∈ r, b.isChild = true := by
  intro b hb
  obtain ⟨s, u, rfl⟩ := List.append_of_mem hb
  cases s with
  | nil =>
    rw [List.nil_append, List.cons_append] at h hcontent
    rw [hwf.isAttribute_cons b _ h] at hcontent
    simpa using hcontent
  | cons c s =>
    exact hwf.isChild_of_below b (u ++ base) _ h ⟨c :: s, by simp, by simp⟩

end WellFormed

def IsContent (tree : Tree) (a : Address) : Prop :=
  a ∈ tree.addresses ∧ tree.isAttribute a = false

def IsChild (tree : Tree) (n m : Address) : Prop := tree.IsContent m ∧ m.parent? = some n

def IsAttributeOf (tree : Tree) (n m : Address) : Prop :=
  m ∈ tree.addresses ∧ tree.isAttribute m = true ∧ m.parent? = some n

def IsParent (n m : Address) : Prop := n.parent? = some m

def IsDescendant (tree : Tree) : Address → Address → Prop := Relation.TransGen tree.IsChild

def IsAncestor : Address → Address → Prop := Relation.TransGen IsParent

theorem isParent_iff (n m : Address) : IsParent n m ↔ ∃ b, n = b :: m :=
  Address.parent?_eq_some_iff n m

theorem isAncestor_iff (n m : Address) : IsAncestor n m ↔ Address.Below m n := by
  constructor
  · intro h
    induction h with
    | single h =>
      obtain ⟨b, rfl⟩ := (isParent_iff _ _).mp h
      exact Address.below_append_cons [] b _
    | tail _ h ih =>
      obtain ⟨b, rfl⟩ := (isParent_iff _ _).mp h
      exact Address.below_trans (Address.below_append_cons [] b _) ih
  · intro h
    obtain ⟨r, hr, rfl⟩ := h
    induction r with
    | nil => exact absurd rfl hr
    | cons b r ih =>
      have hparent : IsParent (b :: r ++ m) (r ++ m) := rfl
      by_cases hnil : r = []
      · subst hnil
        exact Relation.TransGen.single hparent
      · exact Relation.TransGen.head hparent (ih hnil)

theorem WellFormed.isContent_parent {tree : Tree} (hwf : tree.WellFormed) (b : Branch)
    (p : Address) (h : b :: p ∈ tree.addresses) : tree.IsContent p :=
  ⟨mem_addresses_of_append tree [b] p h, hwf.isAttribute_parent b p h⟩

theorem WellFormed.isChild_iff {tree : Tree} (hwf : tree.WellFormed) (n m : Address) :
    tree.IsChild n m ↔ m ∈ tree.addresses ∧ ∃ i, m = .child i :: n := by
  constructor
  · intro h
    obtain ⟨⟨hm, hcontent⟩, hparent⟩ := h
    obtain ⟨b, rfl⟩ := (Address.parent?_eq_some_iff m n).mp hparent
    rw [hwf.isAttribute_cons b n hm] at hcontent
    rcases b with i | i
    · cases hcontent
    · exact ⟨hm, i, rfl⟩
  · intro h
    obtain ⟨hm, i, rfl⟩ := h
    exact ⟨⟨hm, hwf.isAttribute_cons _ n hm⟩, rfl⟩

theorem WellFormed.isAttributeOf_iff {tree : Tree} (hwf : tree.WellFormed) (n m : Address) :
    tree.IsAttributeOf n m ↔ m ∈ tree.addresses ∧ ∃ i, m = .attribute i :: n := by
  constructor
  · intro h
    obtain ⟨hm, hattribute, hparent⟩ := h
    obtain ⟨b, rfl⟩ := (Address.parent?_eq_some_iff m n).mp hparent
    rw [hwf.isAttribute_cons b n hm] at hattribute
    rcases b with i | i
    · exact ⟨hm, i, rfl⟩
    · cases hattribute
  · intro h
    obtain ⟨hm, i, rfl⟩ := h
    exact ⟨hm, hwf.isAttribute_cons _ n hm, rfl⟩

/-- Descendants are what lies below a node, attributes left out. -/
theorem WellFormed.isDescendant_iff {tree : Tree} (hwf : tree.WellFormed) (n m : Address) :
    tree.IsDescendant n m ↔ tree.IsContent m ∧ Address.Below n m := by
  constructor
  · intro h
    induction h with
    | single h =>
      obtain ⟨_, i, rfl⟩ := (hwf.isChild_iff _ _).mp h
      exact ⟨h.1, Address.below_append_cons [] _ n⟩
    | tail _ h ih =>
      obtain ⟨_, i, rfl⟩ := (hwf.isChild_iff _ _).mp h
      exact ⟨h.1, Address.below_trans ih.2 (Address.below_append_cons [] _ _)⟩
  · intro h
    obtain ⟨hm, r, hr, rfl⟩ := h
    induction r with
    | nil => exact absurd rfl hr
    | cons b r ih =>
      have hchild : tree.IsChild (r ++ n) (b :: r ++ n) := ⟨hm, rfl⟩
      by_cases hnil : r = []
      · subst hnil
        exact Relation.TransGen.single hchild
      · exact Relation.TransGen.tail (ih hnil (hwf.isContent_parent b (r ++ n) hm.1)) hchild

end Tree

end XPathQuery
