import XPathQuery.Proofs.NamespacesAround
import XPathQuery.Proofs.WrittenNames

/-!
The names that elements and attributes are reported with. A node takes the prefix of the
first entry of its namespace, not the one it is written with, and the namespaces around
the node give that prefix back its namespace. For an element the entry may as well be the
default one. An attribute without a prefix has no namespace, yet it is reported without
one too when its namespace is the default namespace, and loses its namespace in the name.
-/
namespace XPathQuery.Markup

namespace Scope

variable {scope : Scope} {u : String}

theorem prefixFor?_eq_some {p : String} (h : scope.prefixFor? u = some p) :
    p = "xml" ∧ u = xmlNamespace ∨ ⟨some p, u⟩ ∈ scope := by
  rw [prefixFor?] at h
  split at h
  case isTrue hu => exact Or.inl ⟨(Option.some.inj h).symm, hu⟩
  case isFalse =>
    obtain ⟨⟨q, v⟩, hfound, hq⟩ := Option.bind_eq_some_iff.mp h
    have hv : v = u := by simpa using List.find?_some hfound
    have hmem := List.mem_of_find?_eq_some hfound
    rw [hv, show q = some p from hq] at hmem
    exact Or.inr hmem

/-- A namespace of the scope that has no prefix is that of the default entry. -/
theorem prefixFor?_eq_none {p : Option String} (hmem : ⟨p, u⟩ ∈ scope)
    (h : scope.prefixFor? u = none) : ⟨none, u⟩ ∈ scope := by
  rw [prefixFor?] at h
  split at h
  case isTrue => cases h
  case isFalse =>
    cases hfound : scope.find? (·.uri == u) with
    | none => simpa using List.find?_eq_none.mp hfound _ hmem
    | some d =>
      obtain ⟨q, v⟩ := d
      have hv : v = u := by simpa using List.find?_some hfound
      have hq : q = none := by simpa [hfound] using h
      have hfirst := List.mem_of_find?_eq_some hfound
      rwa [hv, hq] at hfirst

end Scope

theorem elementName?_uri {scope : Scope} {name : WrittenName} {expanded : ExpandedName}
    (h : elementName? scope name = some expanded) :
    expanded.uri = scope.uri? none ∨
      ∃ p u, expanded.uri = some u ∧ ⟨some p, u⟩ ∈ scope := by
  rw [elementName?] at h
  split at h
  case isTrue =>
    obtain rfl := Option.some.inj h
    exact Or.inl rfl
  case isFalse =>
    obtain ⟨u, hu, rfl⟩ := Option.map_eq_some_iff.mp h
    exact Or.inr ⟨name.nsPrefix, u, rfl, Scope.mem_of_uri? hu⟩

theorem attributeName?_uri {scope : Scope} {name : WrittenName} {expanded : ExpandedName}
    (h : attributeName? scope name = some expanded) :
    expanded.uri = none ∨ expanded.uri = some xmlNamespace ∨
      ∃ p u, expanded.uri = some u ∧ ⟨some p, u⟩ ∈ scope := by
  rw [attributeName?] at h
  split at h
  case isTrue =>
    obtain rfl := Option.some.inj h
    exact Or.inl rfl
  case isFalse =>
    split at h
    case isTrue =>
      obtain rfl := Option.some.inj h
      exact Or.inr (Or.inl rfl)
    case isFalse =>
      obtain ⟨u, hu, rfl⟩ := Option.map_eq_some_iff.mp h
      exact Or.inr (Or.inr ⟨name.nsPrefix, u, rfl, Scope.mem_of_uri? hu⟩)

theorem shownUri_of_ne {u : String} (h : u ≠ "") : shownUri (some u) = some u := by
  simp [shownUri, h]

/-- Namespaces that give the prefixes of a scope back what the scope says of them. The
prefix xmlns is never one to look up. -/
structure Resolves (namespaces : Namespaces) (scope : Scope) : Prop where
  xml : namespaces.uriOf "xml" = xmlNamespace
  declared : ∀ p u, ⟨some p, u⟩ ∈ scope → p ≠ "xmlns" → namespaces.uriOf p = u

structure ResolvesDefault (namespaces : Namespaces) (scope : Scope) : Prop where
  missing : scope.uri? none = none → namespaces.defaultUri = ""
  declared : ∀ u, ⟨none, u⟩ ∈ scope → namespaces.defaultUri = u

section Expanding

variable {namespaces : Namespaces} {scope : Scope} {uri : Option String} {u : String}

/-- The prefix that a namespace is reported with has that namespace. -/
theorem Resolves.uri_eq (h : Resolves namespaces scope) {p : String}
    (hp : uri.bind scope.prefixFor? = some p) (hxmlns : p ≠ "xmlns") :
    uri = some (namespaces.uriOf p) := by
  obtain ⟨u, rfl, hu⟩ := Option.bind_eq_some_iff.mp hp
  rcases Scope.prefixFor?_eq_some hu with ⟨rfl, rfl⟩ | hmem
  · rw [h.xml]
  · rw [h.declared p u hmem hxmlns]

/-- A namespace reported without a prefix is the default one. -/
theorem ResolvesDefault.eq (h : ResolvesDefault namespaces scope) {p : Option String}
    (hmem : ⟨p, u⟩ ∈ scope) (hp : scope.prefixFor? u = none) : namespaces.defaultUri = u :=
  h.declared u (Scope.prefixFor?_eq_none hmem hp)

theorem ResolvesDefault.shownUri_eq (h : ResolvesDefault namespaces scope) :
    shownUri (scope.uri? none) = shownUri (some namespaces.defaultUri) := by
  cases hdefault : scope.uri? none with
  | none =>
    rw [h.missing hdefault]
    rfl
  | some u => rw [h.declared u (Scope.mem_of_uri? hdefault)]

/-- An element name without a prefix is in the default namespace. -/
theorem ResolvesDefault.elementName?_none (h : ResolvesDefault namespaces scope)
    (hnonempty : ∀ p u, ⟨some p, u⟩ ∈ scope → u ≠ "") {name : WrittenName}
    {expanded : ExpandedName} (hname : elementName? scope name = some expanded)
    (hp : (shownUri expanded.uri).bind scope.prefixFor? = none) :
    shownUri expanded.uri = shownUri (some namespaces.defaultUri) := by
  rcases elementName?_uri hname with huri | ⟨p, u, huri, hmem⟩
  · rw [huri, h.shownUri_eq]
  · rw [huri, shownUri_of_ne (hnonempty p u hmem)] at hp
    rw [huri, h.eq hmem hp]

/-- An attribute name without a prefix has no namespace but the default one. -/
theorem ResolvesDefault.attributeName?_none (h : ResolvesDefault namespaces scope)
    {name : WrittenName} {expanded : ExpandedName}
    (hname : attributeName? scope name = some expanded)
    (hp : expanded.uri.bind scope.prefixFor? = none) :
    expanded.uri = none ∨ expanded.uri = some namespaces.defaultUri := by
  rcases attributeName?_uri hname with huri | huri | ⟨p, u, huri, hmem⟩
  · exact Or.inl huri
  · simp [huri, Scope.prefixFor?] at hp
  · rw [huri, Option.bind_some] at hp
    rw [huri, h.eq hmem hp]
    exact Or.inr rfl

theorem attributeName?_ne_empty (hnonempty : ∀ p u, ⟨some p, u⟩ ∈ scope → u ≠ "")
    {name : WrittenName} {expanded : ExpandedName}
    (hname : attributeName? scope name = some expanded) :
    shownUri expanded.uri = expanded.uri := by
  rcases attributeName?_uri hname with huri | huri | ⟨p, u, huri, hmem⟩
  · rw [huri]
    rfl
  · rw [huri]
    exact shownUri_of_ne (by decide)
  · rw [huri]
    exact shownUri_of_ne (hnonempty p u hmem)

end Expanding

def NoEmptyPrefix (items : List Item) (node : Address) : Prop :=
  ∀ above ∈ node :: node.ancestors, ∀ a ∈ attributesAt items above,
    a.name.nsPrefix = "xmlns" → a.value ≠ ""

instance (items : List Item) (node : Address) : Decidable (NoEmptyPrefix items node) := by
  unfold NoEmptyPrefix
  infer_instance

theorem mem_scopeAt {items : List Item} {node : Address} {d : Declaration}
    (h : d ∈ scopeAt items node) :
    ∃ above ∈ node :: node.ancestors, d ∈ Scope.written (attributesAt items above) := by
  induction node with
  | nil => cases h
  | cons branch parent ih =>
    rw [scopeAt] at h
    rcases Scope.mem_of_mem_inside h with h | ⟨h, -⟩
    · exact ⟨branch :: parent, List.mem_cons_self, h⟩
    · obtain ⟨above, habove, hd⟩ := ih h
      exact ⟨above, List.mem_cons_of_mem _ habove, hd⟩

/-- A prefix in a scope is written on an attribute around the node. -/
theorem exists_of_mem_scopeAt {items : List Item} {node : Address} {p u : String}
    (h : ⟨some p, u⟩ ∈ scopeAt items node) :
    p ≠ "xml" ∧ ∃ above ∈ node :: node.ancestors, ∃ a ∈ attributesAt items above,
      a.name = ⟨"xmlns", p⟩ ∧ a.value = u := by
  obtain ⟨above, habove, hd⟩ := mem_scopeAt h
  obtain ⟨a, ha, hxml, hdeclares, hvalue⟩ := (Scope.mem_written _ _).mp hd
  refine ⟨fun hp => hxml (congrArg some hp), above, habove, a, ha, ?_, hvalue⟩
  obtain ⟨⟨nsPrefix, localPart⟩, value⟩ := a
  simpa [WrittenAttribute.declares] using hdeclares

theorem NoEmptyPrefix.uri_ne {items : List Item} {node : Address}
    (h : NoEmptyPrefix items node) (p u : String) (hmem : ⟨some p, u⟩ ∈ scopeAt items node) :
    u ≠ "" := by
  obtain ⟨-, above, habove, a, ha, hname, rfl⟩ := exists_of_mem_scopeAt hmem
  exact h above habove a ha (by rw [hname])

section Reads

variable {items : List Item} {tree : Tree} (htop : Reads items [] tree)
include htop

theorem Reads.resolves (hnamed : ∀ item ∈ items, item.Named) {branch : Branch}
    {parent : Address} (hnode : branch :: parent ∈ tree.addresses) :
    Resolves (Namespaces.atNode tree (branch :: parent)) (scopeAt items (branch :: parent)) := by
  refine ⟨(Namespaces.uriOf_fixed tree _).1, fun p u hmem hxmlns => ?_⟩
  obtain ⟨hxml, above, -, a, ha, hname, -⟩ := exists_of_mem_scopeAt hmem
  have hp : p ≠ "" := by
    have := localPart_attributesAt hnamed above a ha
    rwa [hname] at this
  have haround := htop.agrees_around _ hnode p
  have hscope : (scopeAt items (branch :: parent)).uri? (some p) = some u :=
    (agrees_scopeAt items _ _ haround).uri?_eq hmem
  rw [Namespaces.uriOf_atNode _ _ p hp (by simp [Namespaces.isFixed, hxml, hxmlns]),
    htop.uri?_declarationsAround _ hnode (some p) haround, scopeOwner, hscope]
  rfl

theorem Reads.resolvesDefault {branch : Branch} {parent : Address}
    (hnode : branch :: parent ∈ tree.addresses) (h : DefaultsAgree items (branch :: parent)) :
    ResolvesDefault (Namespaces.atNode tree (branch :: parent))
      (scopeAt items (branch :: parent)) := by
  have hdefault : (Namespaces.atNode tree (branch :: parent)).defaultUri =
      ((scopeAt items (branch :: parent)).uri? none).getD "" := by
    rw [Namespaces.defaultUri_atNode,
      htop.uri?_declarationsAround _ hnode none h.agrees_around, scopeOwner]
  refine ⟨fun hnone => ?_, fun u hmem => ?_⟩
  · rw [hdefault, hnone]
    rfl
  · rw [hdefault, (agrees_scopeAt items _ none h.agrees_around).uri?_eq hmem]
    rfl

end Reads

theorem leaf_kind_ne (kind : NodeKind) (name : Option QName) (value : String)
    (helement : kind ≠ .element) (hattribute : kind ≠ .attribute) :
    (leaf kind name value).label.kind ≠ .element ∧
      (leaf kind name value).label.kind ≠ .attribute :=
  ⟨helement, hattribute⟩

/-- The label of an item is that of an element with a name in its scope, or it is not that
of an element and not that of an attribute either. -/
theorem Item.label_of_tree? {outer : Scope} {item : Item} {t : Tree}
    (h : item.tree? outer = some t) :
    (t.label.kind ≠ .element ∧ t.label.kind ≠ .attribute) ∨
      ∃ name expanded, elementName? ((Scope.written item.attributes).inside outer) name =
          some expanded ∧
        t.label = elementLabel outer ((Scope.written item.attributes).inside outer) expanded := by
  cases item with
  | element name attributes content =>
    obtain ⟨expanded, _, _, -, hname, -, -, rfl⟩ := tree?_element h
    exact Or.inr ⟨name, expanded, hname, rfl⟩
  | text content =>
    rw [Item.tree?] at h
    obtain rfl := Option.some.inj h
    exact Or.inl (leaf_kind_ne _ _ _ (by decide) (by decide))
  | comment content =>
    rw [Item.tree?] at h
    obtain rfl := Option.some.inj h
    exact Or.inl (leaf_kind_ne _ _ _ (by decide) (by decide))
  | instruction target content =>
    rw [Item.tree?] at h
    obtain rfl := Option.some.inj h
    exact Or.inl (leaf_kind_ne _ _ _ (by decide) (by decide))

/-- The label of a node below the top is that of an element or an attribute with a name in
the scope of the node, or that of another kind of node. -/
theorem Reads.label_cons {items : List Item} {tree : Tree} (htop : Reads items [] tree)
    {branch : Branch} {parent : Address} {label : Label}
    (hlabel : tree.label? (branch :: parent) = some label) :
    (label.kind ≠ .element ∧ label.kind ≠ .attribute) ∨
      (∃ name expanded, elementName? (scopeAt items (branch :: parent)) name = some expanded ∧
        label = elementLabel (scopeAt items parent) (scopeAt items (branch :: parent)) expanded) ∨
      ∃ name expanded value,
        attributeName? (scopeAt items (branch :: parent)) name = some expanded ∧
          label = attributeLabel (scopeAt items (branch :: parent)) expanded value := by
  obtain ⟨t, ht, rfl⟩ := Option.map_eq_some_iff.mp hlabel
  obtain ⟨p, hp, hbranch⟩ := Tree.at?_of_cons tree t branch parent ht
  have hparent := htop.at parent p hp
  rcases branch with i | i
  · obtain ⟨w, -, expanded, hname, rfl⟩ := hparent.attributes t (List.mem_of_getElem? hbranch)
    rw [scopeAt_cons_of_nil items _ _ rfl]
    exact Or.inr (Or.inr ⟨w.name, expanded, w.value, hname, rfl⟩)
  · obtain ⟨item, hitem, htree⟩ := hparent.exists_item hbranch
    have hattributes : attributesAt items (.child i :: parent) = item.attributes := by
      simp [attributesAt, hitem]
    rw [scopeAt, hattributes]
    exact (Item.label_of_tree? htree).imp_right Or.inl

/-- What the names of a tree need of its reader: the promises of a tree of the items, a top
that is no element, and items whose names have a local part. -/
theorem expands_of_reads {items : List Item} {tree : Tree} (htop : Reads items [] tree)
    (hroot : tree.label.kind = .root) (hnamed : ∀ item ∈ items, item.Named)
    (node : Address) (label : Label) (hlabel : tree.label? node = some label)
    (hkind : label.kind = .element ∨ label.kind = .attribute)
    (hempty : NoEmptyPrefix items node) :
    ∃ name, label.name = some name ∧
      (∀ p, name.nsPrefix = some p → p ≠ "xmlns" →
        label.uri = some ((Namespaces.atNode tree node).uriOf p)) ∧
      (DefaultsAgree items node → label.kind = .element → name.nsPrefix = none →
        label.uri = shownUri (some (Namespaces.atNode tree node).defaultUri)) ∧
      (DefaultsAgree items node → label.kind = .attribute → name.nsPrefix = none →
        label.uri ≠ some (Namespaces.atNode tree node).defaultUri → label.uri = none) := by
  have hnode : node ∈ tree.addresses := by
    obtain ⟨t, ht, -⟩ := Option.map_eq_some_iff.mp hlabel
    exact (Tree.mem_addresses tree node).mpr ⟨t, ht⟩
  cases node with
  | nil =>
    obtain rfl : tree.label = label := Option.some.inj hlabel
    rw [hroot] at hkind
    rcases hkind with hkind | hkind <;> cases hkind
  | cons branch parent =>
    have hresolves := htop.resolves hnamed hnode
    have hdefault := fun h => htop.resolvesDefault hnode h
    rcases htop.label_cons hlabel with ⟨helement, hattribute⟩ | ⟨w, expanded, hname, rfl⟩ |
      ⟨w, expanded, value, hname, rfl⟩
    · exact absurd hkind (not_or.mpr ⟨helement, hattribute⟩)
    · refine ⟨_, rfl, fun p hp hxmlns => ?_, fun h _ hp => ?_, fun _ hkind => ?_⟩
      · exact hresolves.uri_eq hp hxmlns
      · exact (hdefault h).elementName?_none hempty.uri_ne hname hp
      · cases hkind
    · have huri : shownUri expanded.uri = expanded.uri :=
        attributeName?_ne_empty hempty.uri_ne hname
      refine ⟨_, rfl, fun p hp hxmlns => ?_, fun _ hkind => ?_, fun h _ hp hne => ?_⟩
      · exact huri.trans (hresolves.uri_eq hp hxmlns)
      · cases hkind
      · rw [attributeLabel, huri] at hne ⊢
        exact ((hdefault h).attributeName?_none hname hp).resolve_right hne

theorem kind_of_read {source : String} {tree : Tree} (hread : read source = some tree) :
    tree.label.kind = .root := by
  rw [read] at hread
  simp only [Option.bind_eq_bind, Option.bind_eq_some_iff] at hread
  obtain ⟨_, -, _, -, h⟩ := hread
  obtain rfl := Option.some.inj h
  rfl

/-- The name of an element or attribute gives the namespace of the node back, as long as no
prefix around it is bound to the empty namespace: a prefix has that namespace, an element
without one is in the default namespace, and an attribute without one is in no namespace
unless it is in the default namespace. -/
theorem reportedName_expands {source : String} {items : List Item} {tree : Tree}
    (hitems : document source.toList = some items) (hread : read source = some tree)
    (node : Address) (label : Label) (hlabel : tree.label? node = some label)
    (hkind : label.kind = .element ∨ label.kind = .attribute)
    (hempty : NoEmptyPrefix items node) :
    ∃ name, label.name = some name ∧
      (∀ p, name.nsPrefix = some p → p ≠ "xmlns" →
        label.uri = some ((Namespaces.atNode tree node).uriOf p)) ∧
      (DefaultsAgree items node → label.kind = .element → name.nsPrefix = none →
        label.uri = shownUri (some (Namespaces.atNode tree node).defaultUri)) ∧
      (DefaultsAgree items node → label.kind = .attribute → name.nsPrefix = none →
        label.uri ≠ some (Namespaces.atNode tree node).defaultUri → label.uri = none) :=
  expands_of_reads (reads_nil hitems hread) (kind_of_read hread) (named_of_document hitems)
    node label hlabel hkind hempty

/-- An attribute in a namespace of two prefixes is reported with the first of them. -/
theorem reportedName_expands_shared :
    ∃ items tree label,
      document "<a xmlns='u' xmlns:q='v' xmlns:p='v' p:x='1'/>".toList = some items ∧
      read "<a xmlns='u' xmlns:q='v' xmlns:p='v' p:x='1'/>" = some tree ∧
      tree.label? [.attribute 0, .child 0] = some label ∧ label.kind = .attribute ∧
      NoEmptyPrefix items [.attribute 0, .child 0] ∧
      label.name = some ⟨some "q", "x"⟩ ∧
      label.uri = some ((Namespaces.atNode tree [.attribute 0, .child 0]).uriOf "q") := by
  obtain ⟨items, tree, hitems, hread, hlabel, hempty⟩ :
      ∃ items tree,
        document "<a xmlns='u' xmlns:q='v' xmlns:p='v' p:x='1'/>".toList = some items ∧
        read "<a xmlns='u' xmlns:q='v' xmlns:p='v' p:x='1'/>" = some tree ∧
        tree.label? [.attribute 0, .child 0] =
          some ⟨.attribute, some ⟨some "q", "x"⟩, some "v", "1", []⟩ ∧
        NoEmptyPrefix items [.attribute 0, .child 0] :=
    exists_of_read (by decide +kernel) (by decide +kernel) (by decide +kernel)
  obtain ⟨name, hname, hprefix, -, -⟩ :=
    reportedName_expands hitems hread _ _ hlabel (Or.inr rfl) hempty
  obtain rfl := Option.some.inj hname
  exact ⟨items, tree, _, hitems, hread, hlabel, rfl, hempty, rfl,
    hprefix "q" rfl (by decide)⟩

/-- An attribute in the default namespace is reported without a prefix, as if it were in no
namespace, although another prefix has its namespace. -/
theorem reportedName_without_prefix :
    ∃ items tree label,
      document "<a xmlns='u' xmlns:p='u' p:x='1'/>".toList = some items ∧
      read "<a xmlns='u' xmlns:p='u' p:x='1'/>" = some tree ∧
      tree.label? [.attribute 0, .child 0] = some label ∧ label.kind = .attribute ∧
      NoEmptyPrefix items [.attribute 0, .child 0] ∧
      DefaultsAgree items [.attribute 0, .child 0] ∧
      label.name = some ⟨none, "x"⟩ ∧ label.uri = some "u" := by
  obtain ⟨items, tree, hitems, hread, hlabel, hempty, hdefaults⟩ :
      ∃ items tree,
        document "<a xmlns='u' xmlns:p='u' p:x='1'/>".toList = some items ∧
        read "<a xmlns='u' xmlns:p='u' p:x='1'/>" = some tree ∧
        tree.label? [.attribute 0, .child 0] =
          some ⟨.attribute, some ⟨none, "x"⟩, some "u", "1", []⟩ ∧
        NoEmptyPrefix items [.attribute 0, .child 0] ∧
        DefaultsAgree items [.attribute 0, .child 0] :=
    exists_of_read (by decide +kernel) (by decide +kernel) (by decide +kernel)
  exact ⟨items, tree, _, hitems, hread, hlabel, rfl, hempty, hdefaults, rfl, rfl⟩

end XPathQuery.Markup
