import XPathQuery.Proofs.WrittenScopes
import XPathQuery.Proofs.AxisOrder

/-!
The namespaces around a node of a document. A prefix has the namespace that the nearest
written declaration gives it, and so do names without a prefix, unless an element is
written with two different default declarations: the reader of markup lets these
through, and a default namespace that an element repeats from the second of them is
then lost.
-/
namespace XPathQuery

namespace Markup

/-- The node whose scope a node has. A document has the scope of its root element. -/
def scopeOwner (items : List Item) : Address → Address
  | [] => ((items.findIdx? Item.isElement).map fun i => [.child i]).getD []
  | branch :: parent => branch :: parent

/-- No element around a node is written with default declarations that differ. -/
def DefaultsAgree (items : List Item) (node : Address) : Prop :=
  ∀ above ∈ node :: node.ancestors, ∀ a ∈ attributesAt items above,
    ∀ b ∈ attributesAt items above, a.declares none = true → b.declares none = true →
      a.value = b.value

instance (items : List Item) (node : Address) : Decidable (DefaultsAgree items node) := by
  unfold DefaultsAgree
  infer_instance

theorem DefaultsAgree.agrees_around {items : List Item} {node : Address}
    (h : DefaultsAgree items node) :
    ∀ b ∈ node :: node.ancestors, (Scope.written (attributesAt items b)).Agrees none :=
  fun b hb => Scope.agrees_written _ none (h b hb)

theorem length_trees? {outer : Scope} {items : List Item} {ts : List Tree}
    (h : trees? outer items = some ts) : ts.length = items.length := by
  induction items generalizing ts with
  | nil =>
    rw [trees?] at h
    obtain rfl := Option.some.inj h
    rfl
  | cons item rest ih =>
    rw [trees?] at h
    simp only [Option.bind_eq_bind, Option.bind_eq_some_iff] at h
    obtain ⟨t, -, trees, htrees, h⟩ := h
    obtain rfl := Option.some.inj h
    rw [List.length_cons, List.length_cons, ih htrees]

theorem findIdx?_eq_find?_range {α : Type} (p : α → Bool) (xs : List α) :
    xs.findIdx? p = (List.range xs.length).find? fun i => (xs[i]?.map p).getD false := by
  have hhit : ∀ i (h : i < xs.length), (xs[i]?.map p).getD false = p xs[i] := by
    intro i h
    rw [List.getElem?_eq_getElem h]
    rfl
  ext i
  rw [List.findIdx?_eq_some_iff_getElem, List.find?_range_eq_some, List.mem_range]
  constructor
  · intro h
    obtain ⟨hlt, hp, hbefore⟩ := h
    refine ⟨(hhit i hlt).trans hp, hlt, fun j hj => ?_⟩
    rw [hhit j (Nat.lt_trans hj hlt)]
    simpa using hbefore j hj
  · intro h
    obtain ⟨hp, hlt, hbefore⟩ := h
    refine ⟨hlt, (hhit i hlt).symm.trans hp, fun j hj => ?_⟩
    have hj' := hbefore j hj
    rw [hhit j (Nat.lt_trans hj hlt)] at hj'
    simpa using hj'

section Reads

variable {items : List Item} {tree : Tree} (htop : Reads items [] tree)
include htop

/-- The child elements of a document are its items that are elements. -/
theorem Reads.kind?_child (i : Nat) :
    (tree.kind? [.child i] == some .element) = (items[i]?.map Item.isElement).getD false := by
  have hlookup : tree.kind? [.child i] = (tree.children[i]?.map Tree.label).map Label.kind := rfl
  rw [hlookup]
  cases hchild : tree.children[i]? with
  | none =>
    have hnone : items[i]? = none := by
      rw [List.getElem?_eq_none_iff] at hchild ⊢
      exact (length_trees? htop.children) ▸ hchild
    rw [hnone]
    rfl
  | some t =>
    obtain ⟨item, hitem, htree⟩ := htop.exists_item hchild
    rw [contentAt] at hitem
    rw [hitem, Bool.eq_iff_iff]
    simpa using (Item.gives_of_tree? htree).kind

theorem Reads.childElement?_nil :
    tree.childElement? [] = (items.findIdx? Item.isElement).map fun i => [.child i] := by
  have hchildren : tree.childrenOf [] =
      (List.range items.length).map fun i => [Branch.child i] := by
    have hlength : tree.children.length = items.length := length_trees? htop.children
    rw [← hlength]
    rfl
  have hkind : ((fun child => tree.kind? child == some .element) ∘ fun i => [Branch.child i]) =
      fun i => (items[i]?.map Item.isElement).getD false :=
    funext htop.kind?_child
  rw [Tree.childElement?, hchildren, List.find?_map, hkind, findIdx?_eq_find?_range]

theorem Reads.scopeStart_eq (node : Address) : tree.scopeStart node = scopeOwner items node := by
  cases node with
  | cons branch parent => rfl
  | nil => simp [Tree.scopeStart, scopeOwner, htop.childElement?_nil]

theorem Reads.scopeOwner_mem (node : Address) (hnode : node ∈ tree.addresses) :
    scopeOwner items node ∈ tree.addresses := by
  rw [← htop.scopeStart_eq]
  cases node with
  | cons branch parent => exact hnode
  | nil =>
    cases hfirst : tree.childElement? [] with
    | none => simpa [Tree.scopeStart, hfirst] using hnode
    | some first =>
      have hchild := (Tree.mem_childrenOf tree [] first).mp (List.mem_of_find?_eq_some hfirst)
      simpa [Tree.scopeStart, hfirst] using hchild.1

/-- The declarations around a node give a prefix its namespace in the node's scope. -/
theorem Reads.uri?_declarationsAround (node : Address) (hnode : node ∈ tree.addresses)
    (p : Option String)
    (h : ∀ b ∈ scopeOwner items node :: (scopeOwner items node).ancestors,
      (Scope.written (attributesAt items b)).Agrees p) :
    Scope.uri? (tree.declarationsAround node) p =
      (scopeAt items (scopeOwner items node)).uri? p := by
  rw [Tree.declarationsAround, htop.scopeStart_eq,
    htop.uri?_belowRoot _ (htop.scopeOwner_mem node hnode) p h]

end Reads

end Markup

namespace Namespaces

open Markup

/-- The prefix xml and the prefix of declarations are never bound to anything else. -/
theorem uriOf_fixed (tree : Tree) (node : Address) :
    (atNode tree node).uriOf "xml" = xmlNamespace ∧
      (atNode tree node).uriOf "xmlns" = xmlnsNamespace := by
  constructor
  · simp [uriOf, atNode, lookup_foldl_declare_of_some fixedBindings _ "xml" xmlNamespace rfl]
  · simp [uriOf, atNode, lookup_foldl_declare_of_some fixedBindings _ "xmlns" xmlnsNamespace rfl]

theorem uriOf_atNode (tree : Tree) (node : Address) (p : String) (hp : p ≠ "")
    (hfixed : isFixed p = false) :
    (atNode tree node).uriOf p = (Scope.uri? (tree.declarationsAround node) (some p)).getD "" := by
  have hunbound : fixedBindings.lookup p = none := by
    simp only [isFixed, Bool.or_eq_false_iff] at hfixed
    simp [fixedBindings, List.lookup_cons, hfixed]
  rw [uriOf, if_neg hp, atNode, lookup_foldl_declare _ _ p hfixed, hunbound, Option.none_or]

theorem defaultUri_atNode (tree : Tree) (node : Address) :
    (atNode tree node).defaultUri = (Scope.uri? (tree.declarationsAround node) none).getD "" :=
  rfl

/-- A tree that keeps what a reader of the items promises is all this rests on: a prefix has
the namespace that the nearest declaration written around a node gives it. -/
theorem nearest_of_reads {items : List Item} {tree : Tree} (htop : Reads items [] tree)
    (node : Address) (hnode : node ∈ tree.addresses) :
    (∀ p, p ≠ "" → p ≠ "xml" → p ≠ "xmlns" →
      (atNode tree node).uriOf p =
        (declaredUri? items (scopeOwner items node) (some p)).getD "") ∧
    (atNode tree node).uriOf "xml" = xmlNamespace ∧
    (atNode tree node).uriOf "xmlns" = xmlnsNamespace ∧
    (DefaultsAgree items (scopeOwner items node) →
      (atNode tree node).defaultUri =
        (declaredUri? items (scopeOwner items node) none).getD "") := by
  refine ⟨fun p hp hxml hxmlns => ?_, (uriOf_fixed tree node).1, (uriOf_fixed tree node).2,
    fun hdefaults => ?_⟩
  · rw [uriOf_atNode tree node p hp (by simp [isFixed, hxml, hxmlns]),
      htop.uri?_declarationsAround node hnode (some p)
        (htop.agrees_around _ (htop.scopeOwner_mem node hnode) p),
      uri?_scopeAt _ _ _ (by simpa using hxml)]
  · rw [defaultUri_atNode, htop.uri?_declarationsAround node hnode none hdefaults.agrees_around,
      uri?_scopeAt _ _ _ (by simp)]

/-- A prefix has the namespace that the nearest declaration written around a node gives
it, or none, and so have names without a prefix where the default declarations of one
element do not differ. -/
theorem atNode_eq_nearest {source : String} {items : List Item} {tree : Tree}
    (hitems : document source.toList = some items) (hread : read source = some tree)
    (node : Address) (hnode : node ∈ tree.addresses) :
    (∀ p, p ≠ "" → p ≠ "xml" → p ≠ "xmlns" →
      (atNode tree node).uriOf p =
        (declaredUri? items (scopeOwner items node) (some p)).getD "") ∧
    (atNode tree node).uriOf "xml" = xmlNamespace ∧
    (atNode tree node).uriOf "xmlns" = xmlnsNamespace ∧
    (DefaultsAgree items (scopeOwner items node) →
      (atNode tree node).defaultUri =
        (declaredUri? items (scopeOwner items node) none).getD "") :=
  nearest_of_reads (reads_nil hitems hread) node hnode

/-- Inside an element that binds a prefix again and takes the default namespace back. -/
theorem atNode_eq_nearest_redeclared :
    ∃ items tree,
      document "<a xmlns='u' xmlns:p='v'><b xmlns='' xmlns:p='w'>t</b></a>".toList = some items ∧
      read "<a xmlns='u' xmlns:p='v'><b xmlns='' xmlns:p='w'>t</b></a>" = some tree ∧
      [.child 0, .child 0, .child 0] ∈ tree.addresses ∧
      DefaultsAgree items (scopeOwner items [.child 0, .child 0, .child 0]) ∧
      (atNode tree [.child 0, .child 0, .child 0]).uriOf "p" = "w" ∧
      (atNode tree [.child 0, .child 0, .child 0]).defaultUri = "" := by
  obtain ⟨items, tree, hitems, hread, hnode, hdefaults, hprefix, hnone⟩ :
      ∃ items tree,
        document "<a xmlns='u' xmlns:p='v'><b xmlns='' xmlns:p='w'>t</b></a>".toList = some items ∧
        read "<a xmlns='u' xmlns:p='v'><b xmlns='' xmlns:p='w'>t</b></a>" = some tree ∧
        [.child 0, .child 0, .child 0] ∈ tree.addresses ∧
        DefaultsAgree items [.child 0, .child 0, .child 0] ∧
        declaredUri? items [.child 0, .child 0, .child 0] (some "p") = some "w" ∧
        declaredUri? items [.child 0, .child 0, .child 0] none = some "" :=
    exists_of_read (by decide +kernel) (by decide +kernel) (by decide +kernel)
  obtain ⟨hnearest, -, -, hdefault⟩ := atNode_eq_nearest hitems hread _ hnode
  refine ⟨items, tree, hitems, hread, hnode, hdefaults, ?_, ?_⟩
  · rw [hnearest "p" (by decide) (by decide) (by decide), scopeOwner, hprefix]
    rfl
  · rw [hdefault hdefaults, scopeOwner, hnone]
    rfl

/-- A default namespace repeated from the second of two declarations of the parent is
lost: the first of the two is found instead of the nearest. -/
theorem defaultUri_ne_nearest :
    ∃ items tree,
      document "<a xmlns='u1' xmlns='u2'><b xmlns='u2'/></a>".toList = some items ∧
      read "<a xmlns='u1' xmlns='u2'><b xmlns='u2'/></a>" = some tree ∧
      [.child 0, .child 0] ∈ tree.addresses ∧
      (atNode tree [.child 0, .child 0]).defaultUri = "u1" ∧
      (declaredUri? items (scopeOwner items [.child 0, .child 0]) none).getD "" = "u2" :=
  exists_of_read (by decide +kernel) (by decide +kernel) (by decide +kernel)

end Namespaces

end XPathQuery
