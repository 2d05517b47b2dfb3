import XPathQuery.Proofs.WellFormedTree
import XPathQuery.Proofs.WrittenScopes

/-!
The trees of documents. They are well-formed, only their root and elements have children,
and the root is nobody's child.
-/
namespace XPathQuery

namespace Tree

structure ContentContract (t : Tree) : Prop where
  parent_kind : t.children ≠ [] → t.label.kind = .root ∨ t.label.kind = .element
  child_ne_root : ∀ s ∈ t.children, s.label.kind ≠ .root

structure IsDocument (tree : Tree) : Prop where
  wellFormed : tree.WellFormed
  content : ∀ a t, tree.at? a = some t → ContentContract t

theorem IsDocument.of_contracts {tree : Tree}
    (h : ∀ a t, tree.at? a = some t → NodeContract t ∧ ContentContract t) : tree.IsDocument :=
  ⟨fun a t ht => (h a t ht).1, fun a t ht => (h a t ht).2⟩

/-- A node without attributes and children keeps every contract. -/
theorem contracts_of_bare (label : Label) :
    NodeContract (.node label [] []) ∧ ContentContract (.node label [] []) := by
  refine ⟨⟨?_, ?_, ?_, ?_⟩, ?_, ?_⟩ <;> simp [attributes, children]

end Tree

namespace Markup

open XPathQuery.Tree

theorem Item.element_or_leaf {outer : Scope} {item : Item} {t : Tree}
    (h : item.tree? outer = some t) :
    item.isElement = true ∨ ∃ kind name value,
      t = leaf kind name value ∧ kind ≠ .attribute ∧ kind ≠ .root := by
  cases item with
  | element name attributes content => exact Or.inl rfl
  | text content =>
    rw [Item.tree?] at h
    exact Or.inr ⟨_, _, _, (Option.some.inj h).symm, by decide, by decide⟩
  | comment content =>
    rw [Item.tree?] at h
    exact Or.inr ⟨_, _, _, (Option.some.inj h).symm, by decide, by decide⟩
  | instruction target content =>
    rw [Item.tree?] at h
    exact Or.inr ⟨_, _, _, (Option.some.inj h).symm, by decide, by decide⟩

theorem Item.kind_of_tree? {outer : Scope} {item : Item} {t : Tree}
    (h : item.tree? outer = some t) : t.label.kind ≠ .attribute ∧ t.label.kind ≠ .root := by
  rcases item.element_or_leaf h with helement | ⟨kind, name, value, rfl, hkind⟩
  · rw [(item.gives_of_tree? h).kind.mpr helement]
    decide
  · exact hkind

theorem exists_item_of_mem {outer : Scope} {items : List Item} {ts : List Tree}
    (h : trees? outer items = some ts) {t : Tree} (ht : t ∈ ts) :
    ∃ item : Item, item.tree? outer = some t := by
  obtain ⟨i, hi⟩ := List.mem_iff_getElem?.mp ht
  rw [getElem?_trees? h, Option.bind_eq_some_iff] at hi
  obtain ⟨item, -, htree⟩ := hi
  exact ⟨item, htree⟩

/-- What has the trees of items for children, and may have children, keeps its promise. -/
theorem contentContract_of_trees? {outer : Scope} {items : List Item} {t : Tree}
    (h : trees? outer items = some t.children)
    (hkind : t.label.kind = .root ∨ t.label.kind = .element) : ContentContract t := by
  refine ⟨fun _ => hkind, fun s hs => ?_⟩
  obtain ⟨item, hitem⟩ := exists_item_of_mem h hs
  exact (item.kind_of_tree? hitem).2

theorem Item.contracts_of_tree? {outer : Scope} {item : Item} {t : Tree}
    (h : item.tree? outer = some t) : NodeContract t ∧ ContentContract t := by
  rcases item.element_or_leaf h with helement | ⟨kind, name, value, rfl, -⟩
  · have hgives := item.gives_of_tree? h
    have hkind := hgives.kind.mpr helement
    refine ⟨⟨fun _ => hkind, fun hattribute => ?_, fun s hs => ?_, fun s hs => ?_⟩,
      contentContract_of_trees? hgives.children (Or.inr hkind)⟩
    · rw [hkind] at hattribute
      cases hattribute
    · obtain ⟨_, -, _, -, rfl⟩ := hgives.attributes s hs
      rfl
    · obtain ⟨item, hitem⟩ := exists_item_of_mem hgives.children hs
      exact (item.kind_of_tree? hitem).1
  · exact contracts_of_bare _

theorem Reads.contracts_below {items : List Item} {tree t : Tree} (htop : Reads items [] tree)
    {branch : Branch} {parent : Address} (ht : tree.at? (branch :: parent) = some t) :
    NodeContract t ∧ ContentContract t := by
  obtain ⟨p, hp, hbranch⟩ := Tree.at?_of_cons tree t branch parent ht
  have hparent := htop.at parent p hp
  rcases branch with i | i
  · obtain ⟨_, -, _, -, rfl⟩ := hparent.attributes t (List.mem_of_getElem? hbranch)
    exact contracts_of_bare _
  · obtain ⟨item, -, htree⟩ := hparent.exists_item hbranch
    exact item.contracts_of_tree? htree

/-- What is read is a document. -/
theorem isDocument_of_read {source : String} {tree : Tree} (hread : read source = some tree) :
    tree.IsDocument := by
  have hopened := hread
  rw [read] at hopened
  simp only [Option.bind_eq_bind, Option.bind_eq_some_iff] at hopened
  obtain ⟨items, hitems, children, hchildren, h⟩ := hopened
  have htop := reads_nil hitems hread
  refine Tree.IsDocument.of_contracts fun a t ht => ?_
  cases a with
  | cons branch parent => exact htop.contracts_below ht
  | nil =>
    obtain rfl : tree = t := Option.some.inj ht
    obtain rfl := Option.some.inj h
    refine ⟨⟨absurd rfl, fun hattribute => ?_, fun s hs => ?_, fun s hs => ?_⟩,
      contentContract_of_trees? hchildren (Or.inl rfl)⟩
    · cases hattribute
    · cases hs
    · obtain ⟨item, hitem⟩ := exists_item_of_mem hchildren hs
      exact (item.kind_of_tree? hitem).1

end Markup

end XPathQuery
