import XPathQuery.Proofs.BindingLists
import XPathQuery.Proofs.NamespacesAround

/-!
The order of the bindings around a node of a document. They come as the declarations are
written, from the nearest element outwards and on each element in the order of its
attributes, and each prefix has the place of the first one. A declaration that only
repeats what is in force around its element is the exception: it is passed over, so that
its prefix has the place of a declaration further out.
-/
namespace XPathQuery

namespace Markup

def WrittenAttribute.binding? (a : WrittenAttribute) : Option (String × String) :=
  if a.name.nsPrefix == "xmlns" && !Namespaces.isFixed a.name.localPart then
    some (a.name.localPart, a.value)
  else none

def bindingsOn (items : List Item) (node : Address) : List (String × String) :=
  (attributesAt items node).filterMap WrittenAttribute.binding?

def bindingsAround (items : List Item) (node : Address) : List (String × String) :=
  (node :: node.ancestors).flatMap (bindingsOn items)

def repeats (items : List Item) (node : Address) (b : String × String) : Bool :=
  declaredUri? items node.tail (some b.1) == some b.2

/-- The bindings written on a node and above it but for repetitions, nearest first. -/
def newBindingsAround (items : List Item) (node : Address) : List (String × String) :=
  (node :: node.ancestors).flatMap fun above =>
    (bindingsOn items above).filter fun b => !repeats items above b

def NothingRepeated (items : List Item) (node : Address) : Prop :=
  ∀ above ∈ node :: node.ancestors, ∀ b ∈ bindingsOn items above, repeats items above b = false

instance (items : List Item) (node : Address) : Decidable (NothingRepeated items node) := by
  unfold NothingRepeated
  infer_instance

theorem NothingRepeated.newBindingsAround_eq {items : List Item} {node : Address}
    (h : NothingRepeated items node) : newBindingsAround items node = bindingsAround items node := by
  refine List.flatMap_congr fun above habove => List.filter_eq_self.mpr fun b hb => ?_
  rw [h above habove b hb]
  rfl

theorem bindingsAround_cons (items : List Item) (branch : Branch) (parent : Address) :
    bindingsAround items (branch :: parent) =
      bindingsOn items (branch :: parent) ++ bindingsAround items parent := by
  rw [bindingsAround, List.flatMap_cons, Address.ancestors]
  rfl

theorem newBindingsAround_cons (items : List Item) (branch : Branch) (parent : Address) :
    newBindingsAround items (branch :: parent) =
      ((bindingsOn items (branch :: parent)).filter fun b =>
        !repeats items (branch :: parent) b) ++ newBindingsAround items parent := by
  rw [newBindingsAround, List.flatMap_cons, Address.ancestors]
  rfl

theorem isFixed_of_mem_bindingsAround {items : List Item} {node : Address} {b : String × String}
    (h : b ∈ bindingsAround items node) : Namespaces.isFixed b.1 = false := by
  obtain ⟨above, -, h⟩ := List.mem_flatMap.mp h
  obtain ⟨a, -, ha⟩ := List.mem_filterMap.mp h
  rw [WrittenAttribute.binding?] at ha
  split at ha
  case isTrue hwritten =>
    obtain rfl := Option.some.inj ha
    simpa using (Bool.and_eq_true_iff.mp hwritten).2
  case isFalse => cases ha

theorem WrittenAttribute.binding?_of_declares {a : WrittenAttribute} {p : String}
    (hp : Namespaces.isFixed p = false) (h : a.declares (some p) = true) :
    a.binding? = some (p, a.value) := by
  simp only [declares, Bool.and_eq_true, beq_iff_eq] at h
  simp [binding?, h, hp]

theorem WrittenAttribute.declares_of_binding? {a : WrittenAttribute} {p u : String}
    (h : a.binding? = some (p, u)) : a.declares (some p) = true := by
  rw [binding?] at h
  split at h
  case isTrue hwritten =>
    obtain ⟨rfl, -⟩ := Prod.mk.inj (Option.some.inj h)
    simpa [declares] using (Bool.and_eq_true_iff.mp hwritten).1
  case isFalse => cases h

/-- The namespace that an element's own attributes give a prefix. -/
theorem lookup_bindingsOn (items : List Item) (node : Address) (p : String)
    (hp : Namespaces.isFixed p = false) :
    (bindingsOn items node).lookup p =
      ((attributesAt items node).find? (·.declares (some p))).map WrittenAttribute.value := by
  rw [bindingsOn]
  induction attributesAt items node with
  | nil => rfl
  | cons a rest ih =>
    rw [List.find?_cons]
    cases hdeclares : a.declares (some p) with
    | true =>
      rw [List.filterMap_cons_some (a.binding?_of_declares hp hdeclares),
        Namespaces.lookup_cons_eq, if_pos rfl]
      rfl
    | false =>
      rw [← ih]
      cases hbinding : a.binding? with
      | none => rw [List.filterMap_cons_none hbinding]
      | some b =>
        have hne : p ≠ b.1 := by
          rintro rfl
          rw [a.declares_of_binding? hbinding] at hdeclares
          cases hdeclares
        rw [List.filterMap_cons_some hbinding, Namespaces.lookup_cons_eq, if_neg hne]

theorem lookup_bindingsAround (items : List Item) (node : Address) (p : String)
    (hp : Namespaces.isFixed p = false) :
    (bindingsAround items node).lookup p = declaredUri? items node (some p) := by
  induction node with
  | nil => rfl
  | cons branch parent ih =>
    rw [bindingsAround_cons, List.lookup_append, lookup_bindingsOn items _ p hp, ih,
      declaredUri?_cons]

theorem Scope.filter_foldl_extend (own outer around : Scope) (h : ∀ d ∈ outer, d ∈ around) :
    (List.foldl extend own outer).filter (fun d => !around.contains d) =
      own.filter fun d => !around.contains d := by
  induction outer generalizing own with
  | nil => rfl
  | cons d rest ih =>
    obtain ⟨hd, hrest⟩ := List.forall_mem_cons.mp h
    rw [List.foldl_cons, ih _ hrest, extend]
    split
    · rfl
    · simp [hd]

/-- A scope has nothing beyond an element's own declarations that is not around it. -/
theorem Scope.filter_inside (own outer : Scope) :
    (own.inside outer).filter (fun d => !outer.contains d) =
      own.filter fun d => !outer.contains d := by
  rw [inside]
  split
  case isTrue hnil => rw [List.isEmpty_iff.mp hnil, filter_not_contains_self, List.filter_nil]
  case isFalse => exact filter_foldl_extend own outer outer fun d hd => hd

theorem WrittenAttribute.bind_declaration? (a : WrittenAttribute) :
    a.declaration?.bind Namespaces.bindingOf? = a.binding? := by
  unfold declaration? binding?
  split
  case isTrue hdeclares =>
    split
    case isTrue hxml => simp [Namespaces.isFixed, hxml]
    case isFalse =>
      cases hfixed : Namespaces.isFixed a.name.localPart <;>
        simp [Namespaces.bindingOf?, hdeclares, hfixed]
  case isFalse hnot => split <;> simp [Namespaces.bindingOf?, hnot]

theorem contains_iff_uri? {scope : Scope} {p u : String} (hagrees : scope.Agrees (some p)) :
    scope.contains ⟨some p, u⟩ = (scope.uri? (some p) == some u) := by
  rw [Bool.eq_iff_iff, List.contains_iff_mem, beq_iff_eq]
  exact ⟨hagrees.uri?_eq, Scope.mem_of_uri?⟩

/-- What a node reports as its own are the bindings written on it but for repetitions. -/
theorem Reads.filterMap_declarationsOf {items : List Item} {tree : Tree}
    (htop : Reads items [] tree) {branch : Branch} {parent : Address}
    (h : branch :: parent ∈ tree.addresses) :
    (tree.declarationsOf (branch :: parent)).filterMap Namespaces.bindingOf? =
      (bindingsOn items (branch :: parent)).filter fun b =>
        !repeats items (branch :: parent) b := by
  rw [htop.declarationsOf h, scopeAt, Scope.filter_inside, Scope.written, bindingsOn,
    List.filter_filterMap, List.filter_filterMap, List.filterMap_filterMap]
  refine List.filterMap_congr fun a _ => ?_
  rw [← a.bind_declaration?]
  cases a.declaration? with
  | none => rfl
  | some d =>
    cases hd : Namespaces.bindingOf? d with
    | none =>
      rw [Option.bind_some, hd, Option.filter_some]
      split
      · exact hd
      · rfl
    | some b =>
      obtain ⟨rfl, hfixed⟩ := Namespaces.bindingOf?_eq_some hd
      have hparent := Tree.mem_addresses_of_append tree [branch] parent h
      have hagrees := agrees_scopeAt items parent _ (htop.agrees_around parent hparent b.1)
      have hrepeats : (scopeAt items parent).contains ⟨some b.1, b.2⟩ =
          repeats items (branch :: parent) b := by
        rw [contains_iff_uri? hagrees,
          uri?_scopeAt items parent _ (Namespaces.some_ne_xml hfixed)]
        rfl
      rw [Option.bind_some, hd, Option.filter_some, Option.filter_some, hrepeats]
      split
      · exact hd
      · rfl

theorem Reads.filterMap_belowRoot {items : List Item} {tree : Tree} (htop : Reads items [] tree)
    (a : Address) (ha : a ∈ tree.addresses) :
    ((Tree.belowRoot a).flatMap tree.declarationsOf).filterMap Namespaces.bindingOf? =
      newBindingsAround items a := by
  induction a with
  | nil => rfl
  | cons branch parent ih =>
    rw [Tree.belowRoot, List.flatMap_cons, List.filterMap_append,
      htop.filterMap_declarationsOf ha, newBindingsAround_cons,
      ih (Tree.mem_addresses_of_append tree [branch] parent ha)]

end Markup

namespace Namespaces

open Markup

/-- The order of the bindings needs no more of a reader than that its tree keeps what a reader
of the items promises. -/
theorem written_of_reads {items : List Item} {tree : Tree} (htop : Reads items [] tree)
    (node : Address) (hnode : node ∈ tree.addresses) :
    (atNode tree node).bindings =
      fixedBindings ++ firstOfEach (newBindingsAround items (scopeOwner items node)) ∧
    (atNode tree node).bindings.Perm
      (fixedBindings ++ firstOfEach (bindingsAround items (scopeOwner items node))) ∧
    (NothingRepeated items (scopeOwner items node) →
      (atNode tree node).bindings =
        fixedBindings ++ firstOfEach (bindingsAround items (scopeOwner items node)) ∧
      ∀ uri, uri ≠ (atNode tree node).defaultUri →
        (atNode tree node).prefixOf? uri =
          ((fixedBindings ++ firstOfEach (bindingsAround items (scopeOwner items node))).find?
            (·.2 == uri)).map Prod.fst) := by
  have howner := htop.scopeOwner_mem node hnode
  have hnew : (atNode tree node).bindings =
      fixedBindings ++ firstOfEach (newBindingsAround items (scopeOwner items node)) := by
    rw [bindings_atNode, Tree.declarationsAround, htop.scopeStart_eq,
      htop.filterMap_belowRoot _ howner]
  refine ⟨hnew, ?_, fun hnothing => ?_⟩
  · refine (distinctPrefixes_atNode tree node).perm_of_lookup_eq
      (distinctPrefixes_fixed_append fun b hb => isFixed_of_mem_bindingsAround hb) fun p => ?_
    rw [List.lookup_append, lookup_firstOfEach]
    cases hfixed : isFixed p with
    | true =>
      obtain ⟨u, hu⟩ := exists_lookup_fixedBindings hfixed
      rw [bindings_atNode, List.lookup_append, hu, Option.some_or, Option.some_or]
    | false =>
      rw [lookup_bindingsAround items _ p hfixed, ← uri?_scopeAt items _ _ (some_ne_xml hfixed),
        ← htop.uri?_declarationsAround node hnode _ (htop.agrees_around _ howner p)]
      exact lookup_foldl_declare fixedBindings (tree.declarationsAround node) p hfixed
  · have hbindings := hnothing.newBindingsAround_eq ▸ hnew
    refine ⟨hbindings, fun uri huri => ?_⟩
    rw [prefixOf?, if_neg huri, hbindings]

/-- The bindings around a node of a document are the fixed ones and then those written
around it, each prefix once, where the nearest binding of it stands that is no repetition.
If nothing around the node is repeated, that is where the nearest binding of it stands, and
the prefix of a namespace is the first one in this order. Repetitions matter to the order
alone. -/
theorem bindings_atNode_written {source : String} {items : List Item} {tree : Tree}
    (hitems : document source.toList = some items) (hread : read source = some tree)
    (node : Address) (hnode : node ∈ tree.addresses) :
    (atNode tree node).bindings =
      fixedBindings ++ firstOfEach (newBindingsAround items (scopeOwner items node)) ∧
    (atNode tree node).bindings.Perm
      (fixedBindings ++ firstOfEach (bindingsAround items (scopeOwner items node))) ∧
    (NothingRepeated items (scopeOwner items node) →
      (atNode tree node).bindings =
        fixedBindings ++ firstOfEach (bindingsAround items (scopeOwner items node)) ∧
      ∀ uri, uri ≠ (atNode tree node).defaultUri →
        (atNode tree node).prefixOf? uri =
          ((fixedBindings ++ firstOfEach (bindingsAround items (scopeOwner items node))).find?
            (·.2 == uri)).map Prod.fst) :=
  written_of_reads (reads_nil hitems hread) node hnode

/-- Inside an element that binds one prefix anew and another one to a namespace in use. -/
theorem bindings_atNode_written_shadowed :
    ∃ items tree,
      document "<a xmlns:p='u' xmlns:q='v'><b xmlns:q='w' xmlns:r='u'/></a>".toList =
        some items ∧
      read "<a xmlns:p='u' xmlns:q='v'><b xmlns:q='w' xmlns:r='u'/></a>" = some tree ∧
      [.child 0, .child 0] ∈ tree.addresses ∧
      NothingRepeated items (scopeOwner items [.child 0, .child 0]) ∧
      (atNode tree [.child 0, .child 0]).bindings =
        fixedBindings ++ [("q", "w"), ("r", "u"), ("p", "u")] ∧
      (atNode tree [.child 0, .child 0]).prefixOf? "u" = some "r" := by
  obtain ⟨items, tree, hitems, hread, hnode, hnothing, haround, hdefault⟩ :
      ∃ items tree,
        document "<a xmlns:p='u' xmlns:q='v'><b xmlns:q='w' xmlns:r='u'/></a>".toList =
          some items ∧
        read "<a xmlns:p='u' xmlns:q='v'><b xmlns:q='w' xmlns:r='u'/></a>" = some tree ∧
        [.child 0, .child 0] ∈ tree.addresses ∧
        NothingRepeated items (scopeOwner items [.child 0, .child 0]) ∧
        firstOfEach (bindingsAround items (scopeOwner items [.child 0, .child 0])) =
          [("q", "w"), ("r", "u"), ("p", "u")] ∧
        "u" ≠ (atNode tree [.child 0, .child 0]).defaultUri :=
    exists_of_read (by decide +kernel) (by decide +kernel) (by decide +kernel)
  obtain ⟨-, -, hwritten⟩ := bindings_atNode_written hitems hread _ hnode
  obtain ⟨hbindings, hfound⟩ := hwritten hnothing
  refine ⟨items, tree, hitems, hread, hnode, hnothing, haround ▸ hbindings, ?_⟩
  rw [hfound "u" hdefault, haround]
  rfl

/-- A binding that is written again where it is in force already keeps its place further
out, and another prefix of the namespace comes before it. -/
theorem bindings_ne_written :
    ∃ items tree,
      document "<a xmlns:p='u'><b xmlns:p='u' xmlns:q='u'/></a>".toList = some items ∧
      read "<a xmlns:p='u'><b xmlns:p='u' xmlns:q='u'/></a>" = some tree ∧
      [.child 0, .child 0] ∈ tree.addresses ∧
      (atNode tree [.child 0, .child 0]).bindings =
        fixedBindings ++ [("q", "u"), ("p", "u")] ∧
      firstOfEach (bindingsAround items (scopeOwner items [.child 0, .child 0])) =
        [("p", "u"), ("q", "u")] ∧
      (atNode tree [.child 0, .child 0]).prefixOf? "u" = some "q" :=
  exists_of_read (by decide +kernel) (by decide +kernel) (by decide +kernel)

end Namespaces

end XPathQuery
