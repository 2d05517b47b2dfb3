import XPathQuery.Proofs.AxisOrder
import XPathQuery.Proofs.ExactCounts
import XPathQuery.Proofs.JoinedPredicates
import XPathQuery.Proofs.NodeSetOrder

/-!
The numbers that predicates see. A step numbers its nodes along the axis, a filter numbers
the nodes of a node-set in document order. On a forward axis the two agree, so a predicate
may stand inside the step or outside. A reverse axis runs against document order: there the
step numbers the same nodes from the last one to the first.
-/
namespace XPathQuery

/-- A predicate holds in a context when its value is a number equal to the place there, or is
no number and true. -/
def Expr.HoldsIn (tree : Tree) (p : Expr) (context : Context) : Prop :=
  ∃ value, evaluate tree p context = .ok value ∧
    ((∃ n, value = .number n ∧ n.equal (.ofNat context.position) = true) ∨
      value.type ≠ .number ∧ value.toBool = true)

theorem Value.keeps_eq_true_iff (value : Value) (position : Nat) :
    value.keeps position = true ↔
      (∃ n, value = .number n ∧ n.equal (.ofNat position) = true) ∨
        value.type ≠ .number ∧ value.toBool = true := by
  cases value with
  | nodes addresses => simp [keeps, number, Value.type]
  | scalar s =>
    cases s with
    | string text => simp [keeps, number, Value.type, Scalar.type]
    | number n => simp [keeps, number, Value.type, Scalar.type]
    | boolean truth => simp [keeps, number, Value.type, Scalar.type]

theorem exists_error_iff {ε α : Type} (found : Except ε α) :
    (∃ error, found = .error error) ↔ ¬ ∃ a, found = .ok a := by
  cases found <;> simp

theorem exists_getElem?_cons_iff (node : Address) (rest : List Address) (x : Address)
    (P : Nat → Prop) :
    (∃ i, (node :: rest)[i]? = some x ∧ P i) ↔
      x = node ∧ P 0 ∨ ∃ i, rest[i]? = some x ∧ P (i + 1) := by
  rw [← Nat.or_exists_add_one]
  simp [eq_comm]

section Nodes
variable (predicate : Context → Except XPathError Value) (root : Address)

/-- A predicate fails on some nodes when it fails at one of them. -/
theorem keepNodes_fails_iff (size position : Nat) (nodes : List Address) :
    (∃ error, keepNodes predicate root size position nodes = .error error) ↔
      ∃ x i, nodes[i]? = some x ∧
        ∃ error, predicate ⟨x, root, position + i, size⟩ = .error error := by
  simp only [exists_error_iff, keepNodes_succeeds_iff, not_forall, exists_prop]

/-- What a predicate keeps are the nodes that it keeps at their places. -/
theorem mem_keepNodes (size position : Nat) (nodes kept : List Address)
    (h : keepNodes predicate root size position nodes = .ok kept) (x : Address) :
    x ∈ kept ↔ ∃ i, nodes[i]? = some x ∧ ∃ value,
      predicate ⟨x, root, position + i, size⟩ = .ok value ∧ value.keeps (position + i) = true := by
  induction nodes generalizing position kept with
  | nil =>
    obtain rfl : [] = kept := Except.ok.inj h
    simp
  | cons node rest ih =>
    obtain ⟨value, others, hvalue, hothers, rfl⟩ :=
      (keepNodes_cons_eq_ok predicate root node size position rest kept).mp h
    have hrest := ih (position + 1) others hothers
    simp only [Nat.add_assoc, Nat.add_comm 1] at hrest
    have hkept : x ∈ (if value.keeps position then node :: others else others) ↔
        x = node ∧ value.keeps position = true ∨ x ∈ others := by
      cases value.keeps position <;> simp
    rw [hkept, hrest, exists_getElem?_cons_iff node rest x fun i => ∃ value,
      predicate ⟨x, root, position + i, size⟩ = .ok value ∧ value.keeps (position + i) = true]
    refine or_congr_left (and_congr_right fun hx => ?_)
    subst hx
    simp [hvalue]

end Nodes

/-- A count for a predicate keeps the node with that number. -/
theorem keepNodes_count (tree : Tree) (root : Address) (k size position : Nat)
    (nodes : List Address)
    (hlimit : k < Double.countLimit ∨ position + nodes.length ≤ Double.countLimit) :
    keepNodes (fun context => evaluate tree (.number (.ofNat k)) context) root size position
        nodes = .ok (if position ≤ k then nodes[k - position]?.toList else []) := by
  induction nodes generalizing position with
  | nil => simp [keepNodes]
  | cons node rest ih =>
    rw [List.length_cons] at hlimit
    have hkeeps : (Value.number (.ofNat k)).keeps position = decide (k = position) := by
      rw [Bool.eq_iff_iff, decide_eq_true_iff]
      have hcount : k < Double.countLimit ∨ position < Double.countLimit :=
        hlimit.imp_right fun h => by omega
      exact Double.equal_ofNat_iff hcount
    have hrest : k < Double.countLimit ∨ position + 1 + rest.length ≤ Double.countLimit :=
      hlimit.imp_right fun h => by omega
    rw [keepNodes_cons_eq_ok]
    refine ⟨_, _, evaluate_number tree _ _, ih (position + 1) hrest, ?_⟩
    rw [hkeeps]
    rcases Nat.lt_trichotomy k position with hlt | rfl | hgt
    · have hafter : ¬ position + 1 ≤ k := by omega
      simp [hlt.ne, Nat.not_le.mpr hlt, hafter]
    · simp
    · have hnext : k - position = k - (position + 1) + 1 := by omega
      rw [if_pos hgt.le, if_pos (Nat.succ_le_of_lt hgt), hnext]
      simp [hgt.ne']

theorem narrow_count (tree : Tree) (root : Address) {k : Nat} (hk : 0 < k)
    (nodes : List Address)
    (hlimit : k < Double.countLimit ∨ nodes.length < Double.countLimit) :
    narrow tree [.number (.ofNat k)] root nodes = .ok nodes[k - 1]?.toList := by
  have hlimit' : k < Double.countLimit ∨ 1 + nodes.length ≤ Double.countLimit :=
    hlimit.imp_right fun h => by omega
  rw [narrow_singleton, keepNodes_count tree root k _ 1 nodes hlimit',
    if_pos (Nat.succ_le_of_lt hk)]

/-- Places counted from the front of a reversed list are places from the end of the list. -/
theorem exists_getElem?_reverse_iff (nodes : List Address) (x : Address) (P : Nat → Prop) :
    (∃ i, nodes.reverse[i]? = some x ∧ P (1 + i)) ↔
      ∃ i, nodes[i]? = some x ∧ P (nodes.length - i) := by
  constructor
  · intro h
    obtain ⟨i, hx, hP⟩ := h
    have hi : i < nodes.length := by
      simpa using (List.getElem?_eq_some_iff.mp hx).1
    rw [List.getElem?_reverse hi] at hx
    have hplace : nodes.length - (nodes.length - 1 - i) = 1 + i := by omega
    exact ⟨_, hx, hplace ▸ hP⟩
  · intro h
    obtain ⟨i, hx, hP⟩ := h
    have hi : i < nodes.length := (List.getElem?_eq_some_iff.mp hx).1
    have hback : nodes.length - 1 - (nodes.length - 1 - i) = i := by omega
    have hplace : 1 + (nodes.length - 1 - i) = nodes.length - i := by omega
    refine ⟨nodes.length - 1 - i, ?_, hplace ▸ hP⟩
    rw [List.getElem?_reverse (by omega), hback, hx]

section Steps
variable (tree : Tree)

theorem Tree.stepNodes_ascending (axis : Axis) (test : NodeTest) (n : Address)
    (h : axis.isReverse = false) : NodeSet.Ascending (tree.stepNodes axis test n) :=
  (tree.axisNodes_sorted n axis h).sublist List.filter_sublist

theorem Tree.reverse_stepNodes_ascending (axis : Axis) (test : NodeTest) (n : Address)
    (h : axis.isReverse = true) : NodeSet.Ascending (tree.stepNodes axis test n).reverse :=
  List.pairwise_reverse.mpr ((tree.axisNodes_sorted_reverse n axis h).sublist List.filter_sublist)

theorem ascending_toList (found : Option Address) : NodeSet.Ascending found.toList := by
  cases found with
  | none => exact NodeSet.ascending_nil
  | some a => exact NodeSet.ascending_singleton a

/-- In document order, a reverse axis is read backwards. -/
theorem Tree.ofList_stepNodes_of_isReverse (axis : Axis) (test : NodeTest) (n : Address)
    (h : axis.isReverse = true) :
    NodeSet.ofList (tree.stepNodes axis test n) = (tree.stepNodes axis test n).reverse :=
  (NodeSet.ascending_ofList _).eq_of_mem_iff (tree.reverse_stepNodes_ascending axis test n h)
    fun _ => NodeSet.mem_ofList.trans List.mem_reverse.symm

theorem gather_singleton (follow : Address → Except XPathError (List Address)) (n : Address) :
    gather follow [n] = follow n := by
  rw [gather, gather]
  cases follow n with
  | error error => rfl
  | ok found =>
    show Except.ok (found ++ []) = _
    rw [List.append_nil]

variable (axis : Axis) (test : NodeTest) (context : Context)

theorem evaluate_context_step (predicates : List Expr) :
    evaluate tree (.path .context [.step axis test predicates]) context =
      (narrow tree predicates context.root (tree.stepNodes axis test context.node) >>= fun found =>
        .ok (.nodes (NodeSet.ofList found))) := by
  rw [evaluate, startNodes_context]
  change (walk tree [.step axis test predicates] context.root [context.node] >>= fun nodes =>
    Except.ok (Value.nodes nodes)) = _
  rw [walk, gather_singleton, bind_assoc]
  simp only [walk_nil]
  rfl

theorem evaluate_bare_step :
    evaluate tree (.path .context [.step axis test []]) context =
      .ok (.nodes (NodeSet.ofList (tree.stepNodes axis test context.node))) := by
  rw [evaluate_context_step, narrow_nil]
  rfl

theorem evaluate_filter_of_ok (base : Expr) (predicates : List Expr) (nodes : List Address)
    (h : evaluate tree base context = .ok (.nodes nodes)) :
    evaluate tree (.filter base predicates) context =
      (narrow tree predicates context.root nodes >>= fun found => .ok (.nodes found)) := by
  rw [evaluate, h]
  rfl

/-- On a forward axis the numbers inside a step are those of a filter. -/
theorem evaluate_step_eq_filter (predicates : List Expr) (h : axis.isReverse = false) :
    evaluate tree (.path .context [.step axis test predicates]) context =
      evaluate tree (.filter (.path .context [.step axis test []]) predicates) context := by
  have hascending := tree.stepNodes_ascending axis test context.node h
  have hbare := evaluate_bare_step tree axis test context
  rw [hascending.ofList_eq_self] at hbare
  rw [evaluate_filter_of_ok tree context _ predicates _ hbare, evaluate_context_step]
  refine bind_congr_of_eq_ok fun found hfound => ?_
  have hsublist := narrow_sublist tree predicates _ _ found hfound
  rw [(hascending.sublist hsublist).ofList_eq_self]

end Steps

/-- The context of a node in a list, numbered from the end: there `i` is the index from the
start, and the last node has number one. -/
def Context.fromEnd (root : Address) (nodes : List Address) (i : Nat) (node : Address) : Context :=
  ⟨node, root, nodes.length - i, nodes.length⟩

section Reverse
variable {tree : Tree} {axis : Axis} {test : NodeTest} {context : Context} {nodes : List Address}
variable (h : axis.isReverse = true)
  (hnodes : evaluate tree (.path .context [.step axis test []]) context = .ok (.nodes nodes))
include h hnodes

/-- Along a reverse axis lie the nodes of the step, from the last one to the first. -/
theorem stepNodes_eq_reverse : tree.stepNodes axis test context.node = nodes.reverse := by
  rw [evaluate_bare_step, tree.ofList_stepNodes_of_isReverse axis test _ h, Except.ok.injEq,
    Value.nodes.injEq] at hnodes
  rw [← hnodes, List.reverse_reverse]

theorem evaluate_reverse_step (predicates : List Expr) :
    evaluate tree (.path .context [.step axis test predicates]) context =
      (narrow tree predicates context.root nodes.reverse >>= fun found =>
        .ok (.nodes (NodeSet.ofList found))) := by
  rw [evaluate_context_step, stepNodes_eq_reverse h hnodes]

theorem evaluate_reverse_step_fails_iff (p : Expr) :
    (∃ error, evaluate tree (.path .context [.step axis test [p]]) context = .error error) ↔
      ∃ x i, nodes[i]? = some x ∧
        ∃ error, evaluate tree p (.fromEnd context.root nodes i x) = .error error := by
  have hfails : (∃ error, evaluate tree (.path .context [.step axis test [p]]) context =
      .error error) ↔ ∃ error, keepNodes (fun context => evaluate tree p context) context.root
        nodes.length 1 nodes.reverse = .error error := by
    rw [evaluate_reverse_step h hnodes, narrow_singleton, List.length_reverse]
    simp [exists_error_iff, bind_eq_ok]
  rw [hfails, keepNodes_fails_iff]
  exact exists_congr fun x => exists_getElem?_reverse_iff nodes x fun position =>
    ∃ error, evaluate tree p ⟨x, context.root, position, nodes.length⟩ = .error error

theorem evaluate_reverse_step_selects (p : Expr) (value : Value)
    (hvalue : evaluate tree (.path .context [.step axis test [p]]) context = .ok value) :
    ∃ selected, value = .nodes selected ∧ NodeSet.Ascending selected ∧
      ∀ x, x ∈ selected ↔
        ∃ i, nodes[i]? = some x ∧ p.HoldsIn tree (.fromEnd context.root nodes i x) := by
  rw [evaluate_reverse_step h hnodes, narrow_singleton, List.length_reverse, bind_eq_ok] at hvalue
  obtain ⟨kept, hkept, hvalue⟩ := hvalue
  refine ⟨NodeSet.ofList kept, (Except.ok.inj hvalue).symm, NodeSet.ascending_ofList kept, ?_⟩
  intro x
  rw [NodeSet.mem_ofList, mem_keepNodes _ _ _ _ _ kept hkept]
  simp only [Value.keeps_eq_true_iff]
  exact exists_getElem?_reverse_iff nodes x fun position =>
    p.HoldsIn tree ⟨x, context.root, position, nodes.length⟩

theorem evaluate_reverse_step_count {k : Nat} (hk : 0 < k)
    (hlimit : k < Double.countLimit ∨ nodes.length < Double.countLimit) :
    evaluate tree (.path .context [.step axis test [.number (.ofNat k)]]) context =
      .ok (.nodes nodes.reverse[k - 1]?.toList) := by
  have hlimit' : k < Double.countLimit ∨ nodes.reverse.length < Double.countLimit := by
    rwa [List.length_reverse]
  have hone : NodeSet.ofList nodes.reverse[k - 1]?.toList = nodes.reverse[k - 1]?.toList :=
    (ascending_toList _).ofList_eq_self
  rw [evaluate_reverse_step h hnodes, narrow_count tree _ hk _ hlimit']
  exact congrArg (fun found => Except.ok (Value.nodes found)) hone

end Reverse

theorem evaluate_filter_count (tree : Tree) (context : Context) (base : Expr)
    (nodes : List Address) (h : evaluate tree base context = .ok (.nodes nodes)) {k : Nat}
    (hk : 0 < k) (hlimit : k < Double.countLimit ∨ nodes.length < Double.countLimit) :
    evaluate tree (.filter base [.number (.ofNat k)]) context =
      .ok (.nodes nodes[k - 1]?.toList) := by
  rw [evaluate_filter_of_ok tree context base _ nodes h, narrow_count tree _ hk _ hlimit]
  rfl

/-- A step whose predicates number the nodes from the end of the list that the step without
predicates evaluates to. -/
structure NumberedFromEnd (tree : Tree) (axis : Axis) (test : NodeTest) (context : Context)
    (nodes : List Address) : Prop where
  evaluates : evaluate tree (.path .context [.step axis test []]) context = .ok (.nodes nodes)
  fails_iff : ∀ p : Expr,
    (∃ error, evaluate tree (.path .context [.step axis test [p]]) context = .error error) ↔
      ∃ x i, nodes[i]? = some x ∧
        ∃ error, evaluate tree p (.fromEnd context.root nodes i x) = .error error
  selects : ∀ (p : Expr) (value : Value),
    evaluate tree (.path .context [.step axis test [p]]) context = .ok value →
      ∃ selected, value = .nodes selected ∧ NodeSet.Ascending selected ∧ ∀ x, x ∈ selected ↔
        ∃ i, nodes[i]? = some x ∧ p.HoldsIn tree (.fromEnd context.root nodes i x)
  count : ∀ k, 0 < k → (k < Double.countLimit ∨ nodes.length < Double.countLimit) →
    evaluate tree (.path .context [.step axis test [.number (.ofNat k)]]) context =
      .ok (.nodes nodes.reverse[k - 1]?.toList)
  filter_count : ∀ k, 0 < k → (k < Double.countLimit ∨ nodes.length < Double.countLimit) →
    evaluate tree (.filter (.path .context [.step axis test []]) [.number (.ofNat k)]) context =
      .ok (.nodes nodes[k - 1]?.toList)

/-- On a forward axis, a step with predicates is the step without them in a filter. On a
reverse axis, predicates inside the step count from the end of what the step without them
evaluates to, and predicates of a filter count from the start. -/
theorem evaluate_step_numbering (tree : Tree) (axis : Axis) (test : NodeTest)
    (context : Context) :
    (axis.isReverse = false → ∀ predicates,
      evaluate tree (.path .context [.step axis test predicates]) context =
        evaluate tree (.filter (.path .context [.step axis test []]) predicates) context) ∧
    (axis.isReverse = true → ∃ nodes, NumberedFromEnd tree axis test context nodes) := by
  constructor
  · intro hforward predicates
    exact evaluate_step_eq_filter tree axis test context predicates hforward
  · intro hreverse
    have hbare := evaluate_bare_step tree axis test context
    refine ⟨_, hbare, ?_, ?_, ?_, ?_⟩
    · exact evaluate_reverse_step_fails_iff hreverse hbare
    · exact evaluate_reverse_step_selects hreverse hbare
    · exact fun k hk hlimit => evaluate_reverse_step_count hreverse hbare hk hlimit
    · exact fun k hk hlimit => evaluate_filter_count tree context _ _ hbare hk hlimit

/-- From the last of three siblings, the first one before it is the second in document
order, and a filter takes the first. -/
theorem evaluate_step_numbering_siblings :
    let text : Tree := .node ⟨.text, none, none, "", []⟩ [] []
    let tree : Tree := .node ⟨.root, none, none, "", []⟩ [] [text, text, text]
    let one : Expr := .number (.ofNat 1)
    evaluate tree (.path .context [.step .precedingSibling .node [one]]) (.ofNode [.child 2]) =
      .ok (.nodes [[.child 1]]) ∧
    evaluate tree (.filter (.path .context [.step .precedingSibling .node []]) [one])
      (.ofNode [.child 2]) = .ok (.nodes [[.child 0]]) ∧
    evaluate tree (.path .context [.step .followingSibling .node [one]]) (.ofNode [.child 0]) =
      evaluate tree (.filter (.path .context [.step .followingSibling .node []]) [one])
        (.ofNode [.child 0]) := by
  intro text tree one
  obtain ⟨_, hreverse⟩ :=
    evaluate_step_numbering tree .precedingSibling .node (.ofNode [.child 2])
  obtain ⟨hforward, _⟩ :=
    evaluate_step_numbering tree .followingSibling .node (.ofNode [.child 0])
  obtain ⟨nodes, hnumbered⟩ := hreverse rfl
  have hbefore : evaluate tree (.path .context [.step .precedingSibling .node []])
      (.ofNode [.child 2]) = .ok (.nodes [[.child 0], [.child 1]]) := by decide
  obtain rfl : [[.child 0], [.child 1]] = nodes :=
    Value.nodes.inj (Except.ok.inj (hbefore.symm.trans hnumbered.evaluates))
  have hlimit : 1 < Double.countLimit := by decide
  exact ⟨hnumbered.count 1 Nat.one_pos (Or.inl hlimit),
    hnumbered.filter_count 1 Nat.one_pos (Or.inl hlimit), hforward rfl [one]⟩

end XPathQuery
