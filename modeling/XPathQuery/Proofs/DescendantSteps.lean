import XPathQuery.Expr.Equality
import XPathQuery.Expr.Parse
import XPathQuery.Proofs.AxisOrder
import XPathQuery.Proofs.LocationPath
import XPathQuery.Proofs.NodeSetOrder
import XPathQuery.Proofs.PredicateVerdicts

/-!
Two ways to the descendants of a node. Two slashes stand for a step to a node and to every
node below it, from which the next step goes on to children. The children are all that one
step to the descendants reaches, but they are numbered anew for each parent, and one node may
be reached from several nodes that lie in one another. Predicates that look at the nodes
alone do not notice, so both ways have the same result.
-/
namespace XPathQuery

namespace Tree
variable (tree : Tree)

/-- The children of a node and of all below it are what is below it. -/
theorem exists_mem_childrenOf_iff (n m : Address) :
    (∃ x ∈ tree.subtreeOf n, m ∈ tree.childrenOf x) ↔ m ∈ tree.descendantsOf n := by
  simp only [mem_childrenOf, mem_descendantsOf, subtreeOf, List.mem_cons]
  constructor
  · intro h
    obtain ⟨x, hx, hm, i, rfl⟩ := h
    rcases hx with rfl | ⟨_, r, _, hchild, rfl⟩
    · exact ⟨hm, [.child i], by simp, by simp [Branch.isChild], rfl⟩
    · exact ⟨hm, .child i :: r, by simp, List.forall_mem_cons.mpr ⟨rfl, hchild⟩, rfl⟩
  · intro h
    obtain ⟨hm, r, hr, hchild, rfl⟩ := h
    obtain ⟨b, r, rfl⟩ := List.exists_cons_of_ne_nil hr
    obtain ⟨hb, hrest⟩ := List.forall_mem_cons.mp hchild
    rcases b with i | i
    · cases hb
    have hparent : r ++ n ∈ tree.addresses := mem_addresses_of_append tree [.child i] (r ++ n) hm
    refine ⟨r ++ n, ?_, hm, i, rfl⟩
    by_cases hnil : r = []
    · exact Or.inl (by simp [hnil])
    · exact Or.inr ⟨hparent, r, hnil, hrest, rfl⟩

theorem mem_stepNodes (axis : Axis) (test : NodeTest) (n m : Address) :
    m ∈ tree.stepNodes axis test n ↔
      m ∈ tree.axisNodes axis n ∧ (tree.label? m).any (test.passes axis) = true :=
  List.mem_filter

/-- A test looks for the same kind of node on both axes. -/
theorem passes_child_eq_descendant (test : NodeTest) :
    test.passes .child = test.passes .descendant := by
  funext label
  cases test <;> rfl

theorem label?_isSome (n : Address) (h : n ∈ tree.addresses) : (tree.label? n).isSome = true := by
  obtain ⟨t, ht⟩ := (mem_addresses tree n).mp h
  simp [label?, ht]

/-- From the nodes that two slashes lead to, a step to children reaches what a step to
descendants reaches at once. -/
theorem exists_mem_stepNodes_child_iff (test : NodeTest) (n m : Address) :
    (∃ x ∈ tree.stepNodes .descendantOrSelf .node n, m ∈ tree.stepNodes .child test x) ↔
      m ∈ tree.stepNodes .descendant test n := by
  simp only [mem_stepNodes, passes_child_eq_descendant]
  rw [axisNodes, ← exists_mem_childrenOf_iff]
  constructor
  · intro h
    obtain ⟨x, ⟨hx, _⟩, hm, htest⟩ := h
    exact ⟨⟨x, hx, hm⟩, htest⟩
  · intro h
    obtain ⟨⟨x, hx, hm⟩, htest⟩ := h
    obtain ⟨hmem, i, rfl⟩ := (mem_childrenOf tree x m).mp hm
    have hparent := tree.label?_isSome x (mem_addresses_of_append tree [.child i] x hmem)
    refine ⟨x, ⟨hx, ?_⟩, hm, htest⟩
    simpa [Option.any_eq_true, NodeTest.passes, Option.isSome_iff_exists] using hparent

theorem stepNodes_child_subset (test : NodeTest) (n : Address) :
    tree.stepNodes .child test n ⊆ tree.addresses := by
  intro m hm
  exact ((mem_childrenOf tree n m).mp ((mem_stepNodes tree _ test n m).mp hm).1).1

theorem stepNodes_descendant_subset (test : NodeTest) (n : Address) :
    tree.stepNodes .descendant test n ⊆ tree.addresses := by
  intro m hm
  exact ((mem_descendantsOf tree n m).mp ((mem_stepNodes tree _ test n m).mp hm).1).1

end Tree

section Steps
variable {tree : Tree} {root : Address}

theorem selected_append (verdict : Address → Option Bool) (nodes others result : List Address) :
    Selected verdict (nodes ++ others) result ↔
      ∃ kept more, Selected verdict nodes kept ∧ Selected verdict others more ∧
        result = kept ++ more := by
  simp only [Selected, List.forall_mem_append, List.filter_append]
  constructor
  · intro h
    obtain ⟨⟨hnodes, hothers⟩, hresult⟩ := h
    exact ⟨_, _, ⟨hnodes, rfl⟩, ⟨hothers, rfl⟩, hresult⟩
  · intro h
    obtain ⟨_, _, ⟨hnodes, rfl⟩, ⟨hothers, rfl⟩, hresult⟩ := h
    exact ⟨⟨hnodes, hothers⟩, hresult⟩

/-- Predicates that look at the nodes alone may be asked about the nodes of all lists at
once. -/
theorem gather_narrow_eq_ok_iff (predicates : List Expr)
    (hnever : ∀ p ∈ predicates, p.NeverNumber tree tree.addresses root)
    (hignores : ∀ p ∈ predicates, p.IgnoresPlace tree tree.addresses root)
    (found : Address → List Address) (hfound : ∀ n, found n ⊆ tree.addresses)
    (nodes reached : List Address) :
    gather (fun n => narrow tree predicates root (found n)) nodes = .ok reached ↔
      Selected (Expr.verdictOfAll tree root predicates) (nodes.flatMap found) reached := by
  induction nodes generalizing reached with
  | nil => simp [gather, selected_nil, eq_comm]
  | cons n rest ih =>
    simp only [gather_cons_eq_ok, List.flatMap_cons, selected_append, ih,
      narrow_eq_ok_iff_selected predicates hnever hignores _ _ (hfound n)]

/-- Two steps with the same predicates, which look at the nodes alone, have the same result
when they reach the same nodes, from whatever nodes and however often. -/
theorem walk_step_sameResult (axis axis' : Axis) (test : NodeTest) (predicates : List Expr)
    (hnever : ∀ p ∈ predicates, p.NeverNumber tree tree.addresses root)
    (hignores : ∀ p ∈ predicates, p.IgnoresPlace tree tree.addresses root)
    (hsubset : ∀ n, tree.stepNodes axis test n ⊆ tree.addresses)
    (hsubset' : ∀ n, tree.stepNodes axis' test n ⊆ tree.addresses)
    (nodes nodes' : List Address)
    (hmem : ∀ m, m ∈ nodes.flatMap (tree.stepNodes axis test) ↔
      m ∈ nodes'.flatMap (tree.stepNodes axis' test)) :
    SameResult (walk tree [.step axis test predicates] root nodes)
      (walk tree [.step axis' test predicates] root nodes') := by
  intro result
  simp only [walk, bind_eq_ok, Except.ok.injEq,
    gather_narrow_eq_ok_iff predicates hnever hignores _ hsubset,
    gather_narrow_eq_ok_iff predicates hnever hignores _ hsubset']
  have hsame : NodeSet.ofList ((nodes.flatMap (tree.stepNodes axis test)).filter fun n =>
        Expr.verdictOfAll tree root predicates n = some true) =
      NodeSet.ofList ((nodes'.flatMap (tree.stepNodes axis' test)).filter fun n =>
        Expr.verdictOfAll tree root predicates n = some true) :=
    NodeSet.ofList_congr fun m => by simp only [List.mem_filter, hmem]
  simp only [Selected, hmem, and_assoc, exists_and_left, exists_eq_left, hsame]

/-- Two slashes lead to all nodes in the subtrees of the nodes before. -/
theorem walk_descendantOrSelf (rest : List Step) (nodes : List Address) :
    walk tree (Step.descendantOrSelf :: rest) root nodes =
      walk tree rest root
        (NodeSet.ofList (nodes.flatMap (tree.stepNodes .descendantOrSelf .node))) := by
  have hgather : gather (fun n => narrow tree [] root (tree.stepNodes .descendantOrSelf .node n))
      nodes = .ok (nodes.flatMap (tree.stepNodes .descendantOrSelf .node)) := by
    induction nodes with
    | nil => rfl
    | cons n others ih =>
      exact (gather_cons_eq_ok n others _).mpr ⟨_, _, narrow_nil tree root _, ih, rfl⟩
  rw [Step.descendantOrSelf, walk, hgather]
  rfl

theorem walk_descendant_sameResult (test : NodeTest) (predicates : List Expr)
    (hnever : ∀ p ∈ predicates, p.NeverNumber tree tree.addresses root)
    (hignores : ∀ p ∈ predicates, p.IgnoresPlace tree tree.addresses root) (nodes : List Address) :
    SameResult (walk tree [Step.descendantOrSelf, .step .child test predicates] root nodes)
      (walk tree [.step .descendant test predicates] root nodes) := by
  rw [walk_descendantOrSelf]
  refine walk_step_sameResult .child .descendant test predicates hnever hignores
    (tree.stepNodes_child_subset test) (tree.stepNodes_descendant_subset test) _ nodes ?_
  intro m
  simp only [List.mem_flatMap, NodeSet.mem_ofList, ← tree.exists_mem_stepNodes_child_iff]
  constructor
  · intro h
    obtain ⟨x, ⟨n, hn, hx⟩, hm⟩ := h
    exact ⟨n, hn, x, hx, hm⟩
  · intro h
    obtain ⟨n, hn, x, hx, hm⟩ := h
    exact ⟨x, ⟨n, hn, hx⟩, hm⟩

end Steps

/-- After any start and any steps, two slashes and a step to children have the result of a
step to descendants with the same test and predicates, or both paths fail. The predicates
may not be numbers and may not look at places. -/
theorem evaluate_descendant_steps (tree : Tree) (context : Context) (start : PathStart)
    (before : List Step) (test : NodeTest) (predicates : List Expr)
    (hnever : ∀ p ∈ predicates, p.NeverNumber tree tree.addresses context.root)
    (hignores : ∀ p ∈ predicates, p.IgnoresPlace tree tree.addresses context.root) :
    SameResult
      (evaluate tree
        (.path start (before ++ [Step.descendantOrSelf, .step .child test predicates])) context)
      (evaluate tree (.path start (before ++ [.step .descendant test predicates])) context) := by
  rw [evaluate, evaluate]
  refine (SameResult.refl (startNodes tree start context)).bind fun starts _ => ?_
  refine SameResult.bind ?_ fun nodes _ => SameResult.refl _
  rw [walk_append, walk_append]
  refine (SameResult.refl (walk tree before context.root starts)).bind fun nodes _ => ?_
  exact walk_descendant_sameResult test predicates hnever hignores nodes

/-- From nodes that lie in one another, both paths reach each node below them once. -/
theorem evaluate_descendant_steps_nested :
    let element : Label := ⟨.element, some ⟨none, "a"⟩, none, "", []⟩
    let own : Tree := .node ⟨.attribute, some ⟨none, "x"⟩, none, "u", []⟩ [] []
    let tree : Tree := .node ⟨.root, none, none, "", []⟩ []
      [.node element [] [.node element [own] [.node element [own] []], .node element [] []]]
    let before : List Step := [.step .descendantOrSelf .node []]
    let test : NodeTest := .name none "a" none
    let attributes : Expr := .path .context [.step .attribute .wildcard []]
    let reached : Value := .nodes [[.child 0, .child 0], [.child 0, .child 0, .child 0]]
    evaluate tree (.path .root (before ++ [Step.descendantOrSelf, .step .child test [attributes]]))
        (.ofNode []) = .ok reached ∧
      evaluate tree (.path .root (before ++ [.step .descendant test [attributes]])) (.ofNode []) =
        .ok reached := by
  intro element own tree before test attributes reached
  have hreached : evaluate tree (.path .root (before ++ [.step .descendant test [attributes]]))
      (.ofNode []) = .ok reached := by decide +kernel
  have hnever : ∀ p ∈ [attributes], p.NeverNumber tree tree.addresses [] :=
    List.forall_mem_singleton.mpr
      (Expr.neverNumber_of_staticType tree tree.addresses [] attributes (by decide))
  have hignores : ∀ p ∈ [attributes], p.IgnoresPlace tree tree.addresses [] :=
    List.forall_mem_singleton.mpr (Expr.ignoresPlace_path_context tree tree.addresses [] _)
  have hsame := evaluate_descendant_steps tree (.ofNode []) .root before test [attributes] hnever
    hignores
  exact ⟨(hsame reached).mpr hreached, hreached⟩

/-- Such a path is what two slashes between steps are read as. -/
example :
    Expr.parse "..//a[@x]" = .ok (.path .context ([.step .parent .node []] ++
      [Step.descendantOrSelf, .step .child (.name none "a" none)
        [.path .context [.step .attribute (.name none "x" none) []]]])) := by
  decide +kernel

end XPathQuery
