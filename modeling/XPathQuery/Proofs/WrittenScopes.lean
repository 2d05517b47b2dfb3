import XPathQuery.Proofs.NamespaceScopes
import XPathQuery.Proofs.TreeAddresses

/-!
The items of a document and the nodes of its tree. Every node has its place among the
items, and what is written there gives its scope: the declarations of its own element
inside the scope of its parent. The tree keeps of a scope only what a parent does not
share, and a walk from the node to the root brings it together again.
-/
namespace XPathQuery.Markup

namespace Item

def attributes : Item → List WrittenAttribute
  | .element _ attributes _ => attributes
  | _ => []

def content : Item → List Item
  | .element _ _ content => content
  | _ => []

def isElement : Item → Bool
  | .element _ _ _ => true
  | _ => false

end Item

def contentAt (items : List Item) : Address → List Item
  | [] => items
  | .child i :: parent => ((contentAt items parent)[i]?.map Item.content).getD []
  | .attribute _ :: _ => []

def attributesAt (items : List Item) : Address → List WrittenAttribute
  | .child i :: parent => ((contentAt items parent)[i]?.map Item.attributes).getD []
  | _ => []

def scopeAt (items : List Item) : Address → Scope
  | [] => []
  | branch :: parent =>
      (Scope.written (attributesAt items (branch :: parent))).inside (scopeAt items parent)

/-- The namespace that the nearest declaration on a node or above it gives a prefix. -/
def declaredUri? (items : List Item) (node : Address) (p : Option String) : Option String :=
  (node :: node.ancestors).findSome? fun above =>
    ((attributesAt items above).find? (·.declares p)).map WrittenAttribute.value

theorem scopeAt_cons_of_nil (items : List Item) (branch : Branch) (parent : Address)
    (h : attributesAt items (branch :: parent) = []) :
    scopeAt items (branch :: parent) = scopeAt items parent := by
  rw [scopeAt, h]
  rfl

theorem declaredUri?_cons (items : List Item) (branch : Branch) (parent : Address)
    (p : Option String) :
    declaredUri? items (branch :: parent) p =
      (((attributesAt items (branch :: parent)).find? (·.declares p)).map
        WrittenAttribute.value).or (declaredUri? items parent p) := by
  rw [declaredUri?, List.findSome?_cons, Address.ancestors, declaredUri?]
  cases ((attributesAt items (branch :: parent)).find? (·.declares p)).map
    WrittenAttribute.value <;> rfl

/-- The nearest declaration is the one that counts in a scope. -/
theorem uri?_scopeAt (items : List Item) (node : Address) (p : Option String)
    (hp : p ≠ some "xml") : (scopeAt items node).uri? p = declaredUri? items node p := by
  induction node with
  | nil => rfl
  | cons branch parent ih =>
    rw [scopeAt, Scope.uri?_inside, ih, Scope.uri?_written _ _ hp, declaredUri?_cons]

/-! ### The tree of an item -/

theorem mem_attributeNames? {scope : Scope} {attributes : List WrittenAttribute}
    {names : List (ExpandedName × String)} (h : attributeNames? scope attributes = some names)
    {entry : ExpandedName × String} (hentry : entry ∈ names) :
    ∃ a ∈ attributes, attributeName? scope a.name = some entry.1 ∧ a.value = entry.2 := by
  induction attributes generalizing names with
  | nil =>
    obtain rfl := Option.some.inj h
    cases hentry
  | cons a rest ih =>
    rw [attributeNames?] at h
    split at h
    case isTrue =>
      obtain ⟨b, hb, hfound⟩ := ih h hentry
      exact ⟨b, List.mem_cons_of_mem a hb, hfound⟩
    case isFalse =>
      simp only [Option.bind_eq_bind, Option.bind_eq_some_iff] at h
      obtain ⟨name, hname, others, hothers, h⟩ := h
      split at h
      case isTrue => cases h
      case isFalse =>
        obtain rfl := Option.some.inj h
        rcases List.mem_cons.mp hentry with rfl | hentry
        · exact ⟨a, List.mem_cons_self, hname, rfl⟩
        · obtain ⟨b, hb, hfound⟩ := ih hothers hentry
          exact ⟨b, List.mem_cons_of_mem a hb, hfound⟩

/-- The tree of an element, with everything that has to go well for it. -/
theorem Item.tree?_element {outer : Scope} {name : WrittenName}
    {attributes : List WrittenAttribute} {content : List Item} {t : Tree}
    (h : (Item.element name attributes content).tree? outer = some t) :
    ∃ expanded names children,
      Scope.ofAttributes? [] attributes = some (Scope.written attributes) ∧
      elementName? ((Scope.written attributes).inside outer) name = some expanded ∧
      attributeNames? ((Scope.written attributes).inside outer) attributes = some names ∧
      trees? ((Scope.written attributes).inside outer) content = some children ∧
      t = .node (elementLabel outer ((Scope.written attributes).inside outer) expanded)
        (names.map fun (name, value) =>
          .node (attributeLabel ((Scope.written attributes).inside outer) name value) [] [])
        children := by
  rw [Item.tree?] at h
  simp only [Option.bind_eq_bind, Option.bind_eq_some_iff] at h
  obtain ⟨own, hown, expanded, hname, names, hnames, children, hchildren, h⟩ := h
  obtain rfl : own = Scope.written attributes := by
    simpa using Scope.ofAttributes?_eq attributes hown
  exact ⟨expanded, names, children, hown, hname, hnames, hchildren, (Option.some.inj h).symm⟩

structure Item.Gives (outer : Scope) (item : Item) (t : Tree) : Prop where
  kind : t.label.kind = .element ↔ item.isElement = true
  children : trees? ((Scope.written item.attributes).inside outer) item.content = some t.children
  declarations : t.label.declarations =
    ((Scope.written item.attributes).inside outer).filter fun d => !outer.contains d
  attributes : ∀ s ∈ t.attributes, ∃ a ∈ item.attributes, ∃ name,
    attributeName? ((Scope.written item.attributes).inside outer) a.name = some name ∧
      s = .node (attributeLabel ((Scope.written item.attributes).inside outer) name a.value) [] []
  agrees : ∀ q : String, (Scope.written item.attributes).Agrees (some q)

theorem filter_not_contains_self (scope : Scope) :
    scope.filter (fun d => !scope.contains d) = [] := by
  simp [List.filter_eq_nil_iff]

theorem Item.gives_leaf (outer : Scope) (item : Item) (kind : NodeKind) (name : Option QName)
    (value : String) (hkind : kind ≠ .element) (hitem : item.isElement = false) :
    item.Gives outer (leaf kind name value) := by
  have hattributes : item.attributes = [] := by
    cases item <;> first | rfl | cases hitem
  have hcontent : item.content = [] := by
    cases item <;> first | rfl | cases hitem
  refine ⟨?_, ?_, ?_, ?_, ?_⟩
  · simp [leaf, Tree.label, hkind, hitem]
  · rw [hcontent]
    rfl
  · rw [hattributes]
    exact (filter_not_contains_self outer).symm
  · intro s hs
    cases hs
  · intro q
    rw [hattributes]
    exact Scope.agrees_nil _

theorem Item.gives_of_tree? {outer : Scope} {item : Item} {t : Tree}
    (h : item.tree? outer = some t) : item.Gives outer t := by
  cases item with
  | text content =>
    rw [Item.tree?] at h
    obtain rfl := Option.some.inj h
    exact gives_leaf _ _ _ _ _ (by decide) rfl
  | comment content =>
    rw [Item.tree?] at h
    obtain rfl := Option.some.inj h
    exact gives_leaf _ _ _ _ _ (by decide) rfl
  | instruction target content =>
    rw [Item.tree?] at h
    obtain rfl := Option.some.inj h
    exact gives_leaf _ _ _ _ _ (by decide) rfl
  | element name attributes content =>
    obtain ⟨expanded, names, children, hown, -, hnames, hchildren, rfl⟩ := tree?_element h
    refine ⟨?_, hchildren, rfl, ?_, ?_⟩
    · simp [Tree.label, elementLabel, Item.isElement]
    · intro s hs
      obtain ⟨entry, hentry, rfl⟩ := List.mem_map.mp hs
      obtain ⟨a, ha, hname, hvalue⟩ := mem_attributeNames? hnames hentry
      exact ⟨a, ha, entry.1, hname, hvalue ▸ rfl⟩
    · intro q
      exact Scope.agrees_of_ofAttributes? attributes hown q (Scope.agrees_nil _)

theorem getElem?_trees? {outer : Scope} {items : List Item} {ts : List Tree}
    (h : trees? outer items = some ts) (i : Nat) :
    ts[i]? = items[i]?.bind (Item.tree? outer) := by
  induction items generalizing ts i with
  | nil =>
    rw [trees?] at h
    obtain rfl := Option.some.inj h
    rfl
  | cons item rest ih =>
    rw [trees?] at h
    simp only [Option.bind_eq_bind, Option.bind_eq_some_iff] at h
    obtain ⟨t, ht, trees, htrees, h⟩ := h
    obtain rfl := Option.some.inj h
    cases i with
    | zero => simp [ht]
    | succ i => simpa using ih htrees i

/-! ### The tree of a document -/

/-- What a reader of the items promises of the tree at an address: the children are the trees
of the items inside it, the attributes are written on it, it reports the declarations of its
scope that its parent does not share, and no prefix is declared twice. -/
structure Reads (items : List Item) (a : Address) (t : Tree) : Prop where
  children : trees? (scopeAt items a) (contentAt items a) = some t.children
  attributes : ∀ s ∈ t.attributes, ∃ w ∈ attributesAt items a, ∃ name,
    attributeName? (scopeAt items a) w.name = some name ∧
      s = .node (attributeLabel (scopeAt items a) name w.value) [] []
  declarations : a ≠ [] → t.label.declarations =
    (scopeAt items a).filter fun d => !(scopeAt items a.tail).contains d
  agrees : ∀ q : String, (Scope.written (attributesAt items a)).Agrees (some q)

section Reads

variable {items : List Item} {parent : Address} {p t : Tree} {i : Nat}

theorem Reads.exists_item (hparent : Reads items parent p) (hchild : p.children[i]? = some t) :
    ∃ item, (contentAt items parent)[i]? = some item ∧
      item.tree? (scopeAt items parent) = some t := by
  rw [getElem?_trees? hparent.children, Option.bind_eq_some_iff] at hchild
  exact hchild

theorem Reads.child (hparent : Reads items parent p) (hchild : p.children[i]? = some t) :
    Reads items (.child i :: parent) t := by
  obtain ⟨item, hitem, htree⟩ := hparent.exists_item hchild
  have hgives := Item.gives_of_tree? htree
  have hattributes : attributesAt items (.child i :: parent) = item.attributes := by
    simp [attributesAt, hitem]
  have hcontent : contentAt items (.child i :: parent) = item.content := by
    simp [contentAt, hitem]
  constructor
  · rw [scopeAt, hattributes, hcontent]
    exact hgives.children
  · rw [scopeAt, hattributes]
    exact hgives.attributes
  · intro _
    rw [scopeAt, hattributes]
    exact hgives.declarations
  · rw [hattributes]
    exact hgives.agrees

theorem Reads.attribute (hparent : Reads items parent p) (hmem : p.attributes[i]? = some t) :
    Reads items (.attribute i :: parent) t := by
  obtain ⟨w, hw, name, hname, rfl⟩ := hparent.attributes t (List.mem_of_getElem? hmem)
  constructor
  · rfl
  · intro s hs
    cases hs
  · intro _
    rw [scopeAt_cons_of_nil items _ _ rfl]
    exact (filter_not_contains_self _).symm
  · intro q
    exact Scope.agrees_nil _

end Reads

/-- The top of the tree of a document. -/
theorem reads_nil {source : String} {items : List Item} {tree : Tree}
    (hitems : document source.toList = some items) (hread : read source = some tree) :
    Reads items [] tree := by
  rw [read] at hread
  simp only [hitems, Option.bind_eq_bind, Option.bind_some, Option.bind_eq_some_iff] at hread
  obtain ⟨children, hchildren, h⟩ := hread
  obtain rfl := Option.some.inj h
  refine ⟨hchildren, ?_, fun h => absurd rfl h, fun q => Scope.agrees_nil _⟩
  intro s hs
  cases hs

/-- A statement about a fixed document, from the values that reading it gives. -/
theorem exists_of_read {source : String} {P : List Item → Tree → Prop}
    (hitems : (document source.toList).isSome) (hread : (read source).isSome)
    (h : P ((document source.toList).get hitems) ((read source).get hread)) :
    ∃ items tree, document source.toList = some items ∧ read source = some tree ∧ P items tree :=
  ⟨_, _, (Option.some_get hitems).symm, (Option.some_get hread).symm, h⟩

/-- Every node of a tree is read like its top. -/
theorem Reads.at {items : List Item} {tree : Tree} (htop : Reads items [] tree) (a : Address)
    (t : Tree) (ha : tree.at? a = some t) : Reads items a t := by
  induction a generalizing t with
  | nil =>
    obtain rfl := Option.some.inj ha
    exact htop
  | cons branch parent ih =>
    obtain ⟨p, hp, hbranch⟩ := Tree.at?_of_cons tree t branch parent ha
    rcases branch with i | i
    · exact (ih p hp).attribute hbranch
    · exact (ih p hp).child hbranch

/-- A prefix has one namespace in the scope of a node if every element around it gives
it only one. -/
theorem agrees_scopeAt (items : List Item) (a : Address) (p : Option String)
    (h : ∀ b ∈ a :: a.ancestors, (Scope.written (attributesAt items b)).Agrees p) :
    (scopeAt items a).Agrees p := by
  induction a with
  | nil => exact Scope.agrees_nil p
  | cons branch parent ih =>
    rw [scopeAt]
    refine (h _ List.mem_cons_self).inside (ih fun b hb => h b ?_)
    exact List.mem_cons_of_mem _ hb

theorem Reads.declarationsOf {items : List Item} {tree : Tree} (htop : Reads items [] tree)
    {branch : Branch} {parent : Address} (h : branch :: parent ∈ tree.addresses) :
    tree.declarationsOf (branch :: parent) =
      (scopeAt items (branch :: parent)).filter fun d => !(scopeAt items parent).contains d := by
  obtain ⟨t, ht⟩ := (Tree.mem_addresses tree _).mp h
  rw [Tree.declarationsOf, Tree.label?, ht]
  exact (htop.at _ t ht).declarations (List.cons_ne_nil _ _)

/-- Walking from a node to the root through what each element does not share with its
parent finds the namespaces of the node's scope. -/
theorem Reads.uri?_belowRoot {items : List Item} {tree : Tree} (htop : Reads items [] tree)
    (a : Address) (ha : a ∈ tree.addresses) (p : Option String)
    (h : ∀ b ∈ a :: a.ancestors, (Scope.written (attributesAt items b)).Agrees p) :
    Scope.uri? ((Tree.belowRoot a).flatMap tree.declarationsOf) p = (scopeAt items a).uri? p := by
  induction a with
  | nil => rfl
  | cons branch parent ih =>
    have hparent : ∀ b ∈ parent :: Address.ancestors parent,
        (Scope.written (attributesAt items b)).Agrees p :=
      fun b hb => h b (List.mem_cons_of_mem _ hb)
    rw [Tree.belowRoot, List.flatMap_cons, Scope.uri?_append, htop.declarationsOf ha,
      ih (Tree.mem_addresses_of_append tree [branch] parent ha) hparent, scopeAt]
    exact (h _ List.mem_cons_self).uri?_unshared (agrees_scopeAt items parent p hparent)

/-- No element declares a prefix twice. -/
theorem Reads.agrees_around {items : List Item} {tree : Tree} (htop : Reads items [] tree)
    (a : Address) (ha : a ∈ tree.addresses) (q : String) :
    ∀ b ∈ a :: a.ancestors, (Scope.written (attributesAt items b)).Agrees (some q) := by
  intro b hb
  have hmem : b ∈ tree.addresses := by
    rcases List.mem_cons.mp hb with rfl | hb
    · exact ha
    · exact Tree.mem_addresses_of_below ((Address.mem_ancestors a b).mp hb) ha
  obtain ⟨t, ht⟩ := (Tree.mem_addresses tree b).mp hmem
  exact (htop.at b t ht).agrees q

end XPathQuery.Markup
