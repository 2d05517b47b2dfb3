import XPathQuery.Proofs.CollectedNodes
import XPathQuery.Proofs.ComparedResults
import XPathQuery.Proofs.EvaluationOrder
import XPathQuery.Proofs.HandleOrder

/-!
Unions of node-sets. Document order is a total order, so the union of two node-sets is the
increasing list of the nodes of both, and a step that leaves out what it has seen before
lists what it reaches in the same way. Steps lead from each node by itself: from a union they
reach what they reach from its two sides, and they fail from it when they fail from a side.
-/
namespace XPathQuery

namespace Address

theorem compareOrder_eq_lt_iff (a b : Address) : a.compareOrder b = .lt ↔ a.precedes b := by
  unfold compareOrder
  split
  · simp_all
  · split <;> simp_all

theorem compareOrder_eq_eq_iff (a b : Address) : a.compareOrder b = .eq ↔ a = b := by
  unfold compareOrder
  split
  · rename_i h
    simp [ne_of_precedes h]
  · split <;> simp_all

theorem compareOrder_swap (a b : Address) : a.compareOrder b = (b.compareOrder a).swap := by
  rcases precedes_or_eq_or_precedes a b with h | rfl | h
  · have hne := ne_of_precedes h
    simp [compareOrder, h, not_precedes_of_precedes h, hne.symm]
  · simp [compareOrder, precedes_irrefl]
  · have hne := ne_of_precedes h
    simp [compareOrder, h, not_precedes_of_precedes h, hne.symm]

theorem isLE_compareOrder_iff (a b : Address) :
    (a.compareOrder b).isLE = true ↔ a.precedes b ∨ a = b := by
  rw [Ordering.isLE_iff_eq_lt_or_eq_eq, compareOrder_eq_lt_iff, compareOrder_eq_eq_iff]

instance : Std.TransCmp compareOrder where
  eq_swap {a b} := compareOrder_swap a b
  isLE_trans {a b c} hab hbc := by
    rw [isLE_compareOrder_iff] at hab hbc ⊢
    rcases hab with hab | rfl
    · rcases hbc with hbc | rfl
      · exact Or.inl (precedes_trans hab hbc)
      · exact Or.inl hab
    · exact hbc

instance : Std.LawfulEqCmp compareOrder where
  compare_self {a} := (compareOrder_eq_eq_iff a a).mpr rfl
  eq_of_compare {a b} h := (compareOrder_eq_eq_iff a b).mp h

end Address

namespace NodeSet

theorem increasing_iff_ascending (nodes : List Address) :
    NodeList.Increasing Address.compareOrder nodes ↔ Ascending nodes := by
  simp only [NodeList.Increasing, Ascending, Address.compareOrder_eq_lt_iff]

theorem ofList_append_eq_merged (left right : List Address) :
    ofList (left ++ right) = NodeList.merged Address.compareOrder left right := by
  have hincreasing := (increasing_iff_ascending _).mpr (ascending_ofList (left ++ right))
  refine hincreasing.eq_of_mem_iff (NodeList.increasing_merged left right) fun a => ?_
  rw [mem_ofList, List.mem_append, NodeList.mem_merged]

theorem ofList_eq_sorted_unseen (nodes : List Address) :
    ofList nodes = NodeList.sorted Address.compareOrder (NodeList.unseen [] nodes) := by
  have hincreasing := (increasing_iff_ascending _).mpr (ascending_ofList nodes)
  refine hincreasing.eq_of_mem_iff (NodeList.increasing_sorted_unseen nodes) fun a => ?_
  rw [mem_ofList, NodeList.mem_sorted_unseen]

end NodeSet

theorem Value.union_nodes (left right : List Address) :
    (Value.nodes left).union (.nodes right) =
      .ok (.nodes (NodeList.merged Address.compareOrder left right)) := by
  rw [Value.union, NodeSet.ofList_append_eq_merged]

def gatherUnseen (follow : Address → Except XPathError (List Address)) (seen : List Address) :
    List Address → Except XPathError (List Address)
  | [] => .ok []
  | node :: rest => do
      let found ← follow node
      let fresh := NodeList.unseen seen found
      let others ← gatherUnseen follow (fresh ++ seen) rest
      return fresh ++ others

theorem gatherUnseen_eq_map (follow : Address → Except XPathError (List Address))
    (seen nodes : List Address) :
    gatherUnseen follow seen nodes = (gather follow nodes).map (NodeList.unseen seen) := by
  induction nodes generalizing seen with
  | nil => rfl
  | cons node rest ih =>
    rw [gatherUnseen, gather]
    cases hfound : follow node with
    | error e => rfl
    | ok found =>
      have hrest := ih (NodeList.unseen seen found ++ seen)
      cases hothers : gather follow rest with
      | error e =>
        rw [hothers] at hrest
        simp only [bind, Except.bind, hrest, Except.map]
      | ok others =>
        rw [hothers] at hrest
        simp only [bind, Except.bind, hrest, Except.map, pure, Except.pure, NodeList.unseen_append]

section Walk
variable (tree : Tree) (root : Address)

/-- One step leaves out what it has seen before and sorts what it keeps. -/
theorem walk_step_eq_sorted (step : Step) (nodes : List Address) :
    walk tree [step] root nodes =
      (gatherUnseen (step.select tree root) [] nodes).map
        (NodeList.sorted Address.compareOrder) := by
  rw [gatherUnseen_eq_map]
  cases step with
  | step axis test predicates =>
    have hselect : Step.select tree root (.step axis test predicates) =
        fun node => narrow tree predicates root (tree.stepNodes axis test node) := rfl
    rw [walk, hselect]
    cases gather (fun node => narrow tree predicates root (tree.stepNodes axis test node))
      nodes with
    | error e => rfl
    | ok reached =>
      simp only [bind, Except.bind, walk_nil, Except.map, NodeSet.ofList_eq_sorted_unseen]

/-- Steps select along a union when they do along both sides. -/
theorem selectsAlong_append (steps : List Step) (left right : List Address) :
    SelectsAlong tree root steps (NodeSet.ofList (left ++ right)) ↔
      SelectsAlong tree root steps left ∧ SelectsAlong tree root steps right := by
  simp only [SelectsAlong, NodeSet.mem_ofList, List.mem_append, or_imp, forall_and]

theorem walk_ascending (steps : List Step) (starts nodes : List Address)
    (hstarts : NodeSet.Ascending starts) (h : walk tree steps root starts = .ok nodes) :
    NodeSet.Ascending nodes :=
  walk_induct tree NodeSet.Ascending root (fun _ _ reached _ _ => NodeSet.ascending_ofList reached)
    steps starts nodes hstarts h

/-- A walk from a union ends at the union of the ends of the walks from both sides. -/
theorem walk_union_eq_ok_iff (steps : List Step) (left right nodes : List Address) :
    walk tree steps root (NodeSet.ofList (left ++ right)) = .ok nodes ↔
      ∃ l r, walk tree steps root left = .ok l ∧ walk tree steps root right = .ok r ∧
        nodes = NodeSet.ofList (l ++ r) := by
  have hends : ∀ ends l r, walk tree steps root (NodeSet.ofList (left ++ right)) = .ok ends →
      walk tree steps root left = .ok l → walk tree steps root right = .ok r →
      ends = NodeSet.ofList (l ++ r) := by
    intro ends l r hends hl hr
    have hascending := walk_ascending tree root steps _ ends (NodeSet.ascending_ofList _) hends
    refine hascending.eq_of_mem_iff (NodeSet.ascending_ofList _) fun m => ?_
    rw [NodeSet.mem_ofList, List.mem_append, mem_walk tree root steps _ ends hends,
      mem_walk tree root steps left l hl, mem_walk tree root steps right r hr]
    simp only [NodeSet.mem_ofList, List.mem_append, or_and_right, exists_or]
  have hsucceeds := selectsAlong_append tree root steps left right
  rw [← walk_succeeds_iff, ← walk_succeeds_iff, ← walk_succeeds_iff] at hsucceeds
  constructor
  · intro h
    obtain ⟨⟨l, hl⟩, r, hr⟩ := hsucceeds.mp ⟨nodes, h⟩
    exact ⟨l, r, hl, hr, hends nodes l r h hl hr⟩
  · intro h
    obtain ⟨l, r, hl, hr, rfl⟩ := h
    obtain ⟨ends, hwalk⟩ := hsucceeds.mpr ⟨⟨l, hl⟩, r, hr⟩
    rw [hwalk, hends ends l r hwalk hl hr]

end Walk

section Paths
variable (tree : Tree) (context : Context)

theorem evaluate_path_expr_eq_ok (e : Expr) (steps : List Step) (value : Value) :
    evaluate tree (.path (.expr e) steps) context = .ok value ↔
      ∃ starts nodes, evaluate tree e context = .ok (.nodes starts) ∧
        walk tree steps context.root starts = .ok nodes ∧ value = .nodes nodes := by
  rw [evaluate_path_eq_ok]
  simp only [startNodes_expr_eq_ok]

theorem evaluate_union_eq_ok (left right : Expr) (value : Value) :
    evaluate tree (.binary .union left right) context = .ok value ↔
      ∃ l r, evaluate tree left context = .ok (.nodes l) ∧
        evaluate tree right context = .ok (.nodes r) ∧
        value = .nodes (NodeSet.ofList (l ++ r)) := by
  rw [evaluate_binary_eq_ok tree .union (by decide) (by decide)]
  constructor
  · intro h
    obtain ⟨lvalue, rvalue, hl, hr, happly⟩ := h
    obtain ⟨nodes, rfl⟩ := value.eq_nodes_of_type (Operator.apply_type tree .union _ _ value happly)
    obtain ⟨l, r, rfl, rfl, rfl⟩ := Value.union_eq_nodes lvalue rvalue nodes happly
    exact ⟨l, r, hl, hr, rfl⟩
  · intro h
    obtain ⟨l, r, hl, hr, rfl⟩ := h
    exact ⟨_, _, hl, hr, rfl⟩

/-- Steps from a union have the result of the union of the steps from both sides. -/
theorem evaluate_path_union_sameResult (left right : Expr) (steps : List Step) :
    SameResult (evaluate tree (.path (.expr (.binary .union left right)) steps) context)
      (evaluate tree (.binary .union (.path (.expr left) steps) (.path (.expr right) steps))
        context) := by
  intro value
  simp only [evaluate_path_expr_eq_ok, evaluate_union_eq_ok, Value.nodes.injEq]
  constructor
  · intro h
    obtain ⟨_, nodes, ⟨l, r, hl, hr, rfl⟩, hwalk, rfl⟩ := h
    obtain ⟨a, b, ha, hb, rfl⟩ :=
      (walk_union_eq_ok_iff tree context.root steps l r nodes).mp hwalk
    exact ⟨a, b, ⟨l, a, hl, ha, rfl⟩, ⟨r, b, hr, hb, rfl⟩, rfl⟩
  · intro h
    obtain ⟨a, b, ⟨l, _, hl, ha, rfl⟩, ⟨r, _, hr, hb, rfl⟩, rfl⟩ := h
    exact ⟨_, _, ⟨l, r, hl, hr, rfl⟩,
      (walk_union_eq_ok_iff tree context.root steps l r _).mpr ⟨_, _, ha, hb, rfl⟩, rfl⟩

/-- Steps from a path are further steps of the path. -/
theorem evaluate_path_path (start : PathStart) (before steps : List Step) :
    evaluate tree (.path (.expr (.path start before)) steps) context =
      evaluate tree (.path start (before ++ steps)) context := by
  simp only [evaluate, startNodes, walk_append, bind_assoc, pure_bind, Value.requireNodes]
  rfl

end Paths

/-- Of nodes of any kind in a total order, the union of two lists is the increasing list of
the nodes of both, whatever their order and repetitions. So unions may be swapped, nested
anew and repeated, and it does not matter whether a list is cleared before it is sorted or
after. In document order the operator gives this union of its operands, and a step that
leaves out what it has seen before the same list of what it reaches. Steps from a union of
expressions have the result of the union of the paths that take these steps from both, or
both expressions fail; where a side is a path itself, its steps just go on. -/
theorem union_exact {Node : Type} [DecidableEq Node] (order : Node → Node → Ordering)
    [Std.TransCmp order] [Std.LawfulEqCmp order] (tree : Tree) (context : Context) :
    (NodeList.UnionLaws order (NodeList.merged order) ∧
      ∀ left right, NodeList.sorted order (NodeList.unseen [] (left ++ right)) =
        NodeList.merged order left right) ∧
    (NodeList.UnionLaws Address.compareOrder (NodeList.merged Address.compareOrder) ∧
      ∀ left right, (Value.nodes left).union (.nodes right) =
        .ok (.nodes (NodeList.merged Address.compareOrder left right))) ∧
    (∀ step nodes, walk tree [step] context.root nodes =
      (gatherUnseen (step.select tree context.root) [] nodes).map
        (NodeList.sorted Address.compareOrder)) ∧
    (∀ left right steps, SameResult
      (evaluate tree (.path (.expr (.binary .union left right)) steps) context)
      (evaluate tree (.binary .union (.path (.expr left) steps) (.path (.expr right) steps))
        context)) ∧
    ∀ start before steps, evaluate tree (.path (.expr (.path start before)) steps) context =
      evaluate tree (.path start (before ++ steps)) context :=
  ⟨⟨NodeList.unionLaws_merged, NodeList.sorted_unseen_append⟩,
    ⟨NodeList.unionLaws_merged, Value.union_nodes⟩, walk_step_eq_sorted tree context.root,
    evaluate_path_union_sameResult tree context, evaluate_path_path tree context⟩

/-- Handles given twice and against their order, and a step that leads from both sides of a
union to nodes they share. -/
theorem union_exact_shared :
    let element : Label := ⟨.element, some ⟨none, "a"⟩, none, "", []⟩
    let tree : Tree := .node ⟨.root, none, none, "", []⟩ []
      [.node element [] [.node element [] [.node element [] []]], .node element [] []]
    let below : Expr := .path .context [.step .descendant .node []]
    let beside : Expr := .path .context [.step .child .wildcard [.number (.ofNat 2)]]
    let step : Step := .step .ancestorOrSelf .node [.number (.ofNat 2)]
    let reached : Value := .nodes [[], [.child 0], [.child 0, .child 0]]
    NodeList.merged Handle.order [.node 2, .attribute 1 0, .node 2] [.node 1, .attribute 1 0] =
      [.node 1, .attribute 1 0, .node 2] ∧
    evaluate tree (.path (.expr (.binary .union below beside)) [step]) (.ofNode []) =
      .ok reached ∧
    evaluate tree (.binary .union (.path (.expr below) [step]) (.path (.expr beside) [step]))
      (.ofNode []) = .ok reached := by
  intro element tree below beside step reached
  have hreached : evaluate tree
      (.binary .union (.path (.expr below) [step]) (.path (.expr beside) [step])) (.ofNode []) =
        .ok reached := by decide +kernel
  obtain ⟨⟨hlaws, -⟩, -, -, hpaths, -⟩ := union_exact Handle.order tree (.ofNode [])
  refine ⟨?_, (hpaths below beside [step] reached).mpr hreached, hreached⟩
  have hincreasing : NodeList.Increasing Handle.order [.node 1, .attribute 1 0, .node 2] := by
    unfold NodeList.Increasing
    decide
  refine (hlaws.increasing _ _).eq_of_mem_iff hincreasing fun a => ?_
  rw [hlaws.mem_iff]
  simp only [List.mem_cons, List.not_mem_nil, or_false]
  constructor
  · rintro ((rfl | rfl | rfl) | rfl | rfl) <;> simp
  · rintro (rfl | rfl | rfl) <;> simp

end XPathQuery
