import XPathQuery.Proofs.AxisNodes
import XPathQuery.Proofs.LocationPath
import XPathQuery.Proofs.NodeSetOrder
import XPathQuery.Proofs.StaticTypes
import XPathQuery.Proofs.TypeSoundness
import XPathQuery.Selection.Basic
import Mathlib.Data.List.Sort

/-!
The order of node-sets. Only a few ways lead to a node-set: it is the root, the context
node, part of another one, or made of any list by sorting out repetition. What these
ways preserve holds of every node-set value, whatever stands around the expression. So
every node-set is in document order, and in a well-formed tree it is part of the list of
all nodes. The first node of a value is the first in document order, and selections give
their matches in that order.
-/
namespace XPathQuery

section Evaluation
variable (tree : Tree)

/-- What each step preserves holds at the end of a walk when it holds of the start. -/
theorem walk_induct (P : List Address → Prop) (root : Address)
    (hstep : ∀ step starts reached, P starts →
      gather (Step.select tree root step) starts = .ok reached → P (NodeSet.ofList reached))
    (steps : List Step) (starts nodes : List Address) (hstarts : P starts)
    (h : walk tree steps root starts = .ok nodes) : P nodes := by
  induction steps generalizing starts with
  | nil =>
    obtain rfl := (walk_nil_eq_ok tree root starts nodes).mp h
    exact hstarts
  | cons step rest ih =>
    obtain ⟨reached, hreached, hrest⟩ := (walk_cons_eq_ok tree step rest root starts nodes).mp h
    have hnext : P (NodeSet.ofList reached) := hstep step starts reached hstarts hreached
    exact ih (NodeSet.ofList reached) hnext hrest

/-- A property of lists of nodes holds of every node-set value when it holds of the root
and the context node and is preserved by leaving nodes out, by steps and by unions. -/
theorem evaluate_nodes_induct (P : List Address → Prop) (context : Context)
    (hroot : P [context.root]) (hnode : P [context.node])
    (hsublist : ∀ nodes others, P nodes → others.Sublist nodes → P others)
    (hstep : ∀ step starts reached, P starts →
      gather (Step.select tree context.root step) starts = .ok reached →
        P (NodeSet.ofList reached))
    (hunion : ∀ left right, P left → P right → P (NodeSet.ofList (left ++ right)))
    (e : Expr) (nodes : List Address)
    (h : evaluate tree e context = .ok (.nodes nodes)) : P nodes := by
  induction e using Expr.induct generalizing nodes with
  | step e ih =>
    have htype := evaluate_type tree e context (.nodes nodes) h
    cases e with
    | literal text => cases htype
    | number value => cases htype
    | path start steps =>
      obtain ⟨starts, found, hstarts, hsteps, hvalue⟩ :=
        (evaluate_path_eq_ok tree start steps context _).mp h
      obtain rfl := Value.nodes.inj hvalue
      refine walk_induct tree P context.root hstep steps starts nodes ?_ hsteps
      rw [startNodes_eq_ok_iff] at hstarts
      cases start with
      | root =>
        obtain rfl : starts = [context.root] := hstarts
        exact hroot
      | context =>
        obtain rfl : starts = [context.node] := hstarts
        exact hnode
      | expr e => exact ih e (by simp [Expr.parts, PathStart.parts]) starts hstarts
    | filter base predicates =>
      obtain ⟨found, kept, hfound, hkept, hvalue⟩ :=
        (evaluate_filter_eq_ok tree base predicates context _).mp h
      obtain rfl := Value.nodes.inj hvalue
      exact hsublist found nodes (ih base List.mem_cons_self found hfound)
        (narrow_sublist tree predicates context.root found nodes hkept)
    | call function arguments =>
      exact absurd htype.symm (Expr.staticType_call_ne function arguments)
    | binary operator left right =>
      cases operator with
      | union =>
        obtain ⟨l, r, hl, hr, happly⟩ := (evaluate_binary_eq_ok tree .union
          (by decide) (by decide) left right context _).mp h
        obtain ⟨l, r, rfl, rfl, rfl⟩ := Value.union_eq_nodes l r nodes happly
        exact hunion l r (ih left (by simp [Expr.parts]) l hl)
          (ih right (by simp [Expr.parts]) r hr)
      | or => cases htype
      | and => cases htype
      | comparison relation => cases htype
      | arithmetic operation => cases htype
    | negate operand => cases htype

/-- A node-set value is strictly ascending in document order. -/
theorem evaluate_ascending (e : Expr) (context : Context) (nodes : List Address)
    (h : evaluate tree e context = .ok (.nodes nodes)) : NodeSet.Ascending nodes := by
  refine evaluate_nodes_induct tree NodeSet.Ascending context ?_ ?_ ?_ ?_ ?_ e nodes h
  · exact NodeSet.ascending_singleton context.root
  · exact NodeSet.ascending_singleton context.node
  · exact fun _ _ hnodes hsub => hnodes.sublist hsub
  · exact fun _ _ reached _ _ => NodeSet.ascending_ofList reached
  · exact fun left right _ _ => NodeSet.ascending_ofList (left ++ right)

/-- What a reverse axis lists backwards comes out in document order. -/
example :
    let text : Tree := .node ⟨.text, none, none, "", []⟩ [] []
    let tree : Tree := .node ⟨.root, none, none, "", []⟩ [] [text, text, text]
    evaluate tree (.path .context [.step .precedingSibling .node []]) (.ofNode [.child 2]) =
      .ok (.nodes [[.child 0], [.child 1]]) := by
  decide

theorem stepNodes_subset_addresses (hwf : tree.WellFormed) (axis : Axis) (test : NodeTest)
    (n : Address) (hn : n ∈ tree.addresses) : tree.stepNodes axis test n ⊆ tree.addresses := by
  intro m hm
  have haxis : m ∈ tree.axisNodes axis n := (List.mem_filter.mp hm).1
  rw [hwf.mem_axisNodes n m axis hn] at haxis
  exact hwf.mem_addresses_of_onAxis n m axis hn haxis

/-- What a step selects from a node of a well-formed tree are nodes of the tree. -/
theorem select_subset_addresses (hwf : tree.WellFormed) (root : Address) (step : Step)
    (n : Address) (hn : n ∈ tree.addresses) (found : List Address)
    (h : step.select tree root n = .ok found) : found ⊆ tree.addresses := by
  cases step with
  | step axis test predicates =>
    exact List.Subset.trans (narrow_sublist tree predicates root _ found h).subset
      (stepNodes_subset_addresses tree hwf axis test n hn)

theorem evaluate_subset_addresses (hwf : tree.WellFormed) (e : Expr) (context : Context)
    (hroot : context.root ∈ tree.addresses) (hnode : context.node ∈ tree.addresses)
    (nodes : List Address) (h : evaluate tree e context = .ok (.nodes nodes)) :
    nodes ⊆ tree.addresses := by
  refine evaluate_nodes_induct tree (· ⊆ tree.addresses) context ?_ ?_ ?_ ?_ ?_ e nodes h
  · exact List.cons_subset.mpr ⟨hroot, List.nil_subset _⟩
  · exact List.cons_subset.mpr ⟨hnode, List.nil_subset _⟩
  · exact fun _ _ hnodes hsub => List.Subset.trans hsub.subset hnodes
  · intro step starts reached hstarts hreached m hm
    obtain ⟨n, hn, found, hfound, hm⟩ :=
      (mem_gather starts reached hreached m).mp (NodeSet.mem_ofList.mp hm)
    exact select_subset_addresses tree hwf context.root step n (hstarts hn) found hfound hm
  · intro left right hleft hright m hm
    exact List.append_subset.mpr ⟨hleft, hright⟩ (NodeSet.mem_ofList.mp hm)

/-- Evaluated at a node of a well-formed tree, a node-set is the list of all nodes of the
tree, in document order, with some left out. -/
theorem evaluate_sublist_addresses (hwf : tree.WellFormed) (e : Expr) (context : Context)
    (hroot : context.root ∈ tree.addresses) (hnode : context.node ∈ tree.addresses)
    (nodes : List Address) (h : evaluate tree e context = .ok (.nodes nodes)) :
    nodes.Sublist tree.addresses := by
  have hasc := evaluate_ascending tree e context nodes h
  have hsubset := evaluate_subset_addresses tree hwf e context hroot hnode nodes h
  have : Std.Antisymm Address.precedes :=
    ⟨fun _ _ hab hba => absurd hba (Address.not_precedes_of_precedes hab)⟩
  exact List.sublist_of_subperm_of_pairwise (List.subperm_of_subset hasc.nodup hsubset) hasc
    tree.addresses_sorted

end Evaluation

/-- What converts a node-set to one node takes the first in document order. -/
theorem convert_of_isFirst (tree : Tree) (nodes : List Address) (h : NodeSet.Ascending nodes)
    (first : Address) (hfirst : NodeSet.IsFirst nodes first) :
    (Value.nodes nodes).toText tree = tree.stringValueOf first ∧
    (Value.nodes nodes).toNumber tree = Text.toNumber (tree.stringValueOf first).toList ∧
    ∀ (f : CoreFunction) context rest,
      f.chosenNode context (.nodes nodes :: rest) = .ok (some first) := by
  rw [← h.head?_eq_some_iff] at hfirst
  obtain ⟨others, rfl⟩ := List.head?_eq_some_iff.mp hfirst
  exact ⟨rfl, rfl, fun _ _ _ => rfl⟩

theorem Compiled.evaluateNodes_ascending (compiled : Compiled) (tree : Tree) (node : Address)
    (nodes : List Address) (h : compiled.evaluateNodes tree node = .ok nodes) :
    NodeSet.Ascending nodes :=
  evaluate_ascending tree compiled.expr (.ofNode node) nodes
    ((compiled.evaluateNodes_eq_ok tree node nodes).mp h)

theorem mapError_eq_ok {ε ε' α : Type} (convert : ε → ε') (found : Except ε α) (a : α) :
    found.mapError convert = .ok a ↔ found = .ok a := by
  cases found <;> simp [Except.mapError]

namespace Selection

theorem exists_compiled_of_nodes_eq_ok (selection : Selection) (nodes : List Address)
    (h : selection.nodes = .ok nodes) :
    ∃ compiled : Compiled, compiled.evaluateNodes selection.tree selection.node = .ok nodes := by
  obtain ⟨expression, _, hfound⟩ := bind_eq_ok.mp h
  obtain ⟨compiled, _, hnodes⟩ := bind_eq_ok.mp ((mapError_eq_ok _ _ nodes).mp hfound)
  exact ⟨compiled, hnodes⟩

theorem first?_eq_ok_iff (selection : Selection) (nodes : List Address)
    (h : selection.nodes = .ok nodes) (n : Address) :
    selection.first? = .ok (some n) ↔ NodeSet.IsFirst nodes n := by
  obtain ⟨compiled, hcompiled⟩ := selection.exists_compiled_of_nodes_eq_ok nodes h
  have hasc := compiled.evaluateNodes_ascending selection.tree selection.node nodes hcompiled
  have hfirst : selection.first? = .ok nodes.head? := by
    rw [first?, h]
    rfl
  rw [hfirst, Except.ok.injEq, hasc.head?_eq_some_iff]

end Selection

end XPathQuery
