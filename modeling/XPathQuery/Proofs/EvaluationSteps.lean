import XPathQuery.Evaluation

/-!
What evaluation does on each form of expression, when it succeeds. Every result is
split into the results it is made of, so that facts about values can be carried
through an expression without opening the evaluator again.
-/
namespace XPathQuery

theorem bind_eq_ok {ε α β : Type} {first : Except ε α} {next : α → Except ε β} {result : β} :
    (first >>= next) = .ok result ↔ ∃ a, first = .ok a ∧ next a = .ok result := by
  rcases first with e | a <;> simp [bind, Except.bind]

theorem bind_congr_of_eq_ok {ε α β : Type} {first : Except ε α} {next next' : α → Except ε β}
    (h : ∀ a, first = .ok a → next a = next' a) : (first >>= next) = first >>= next' := by
  cases first with
  | error e => rfl
  | ok a => exact h a rfl

/-- Two computations one after the other, and what is made of their results. -/
theorem bind_bind_eq_ok {ε α β γ : Type} {first : Except ε α} {second : α → Except ε β}
    {combine : α → β → γ} {result : γ} :
    (first >>= fun a => second a >>= fun b => pure (combine a b)) = .ok result ↔
      ∃ a b, first = .ok a ∧ second a = .ok b ∧ result = combine a b := by
  simp only [bind_eq_ok, pure, Except.pure, Except.ok.injEq]
  constructor
  · intro h
    obtain ⟨a, ha, b, hb, rfl⟩ := h
    exact ⟨a, b, ha, hb, rfl⟩
  · intro h
    obtain ⟨a, b, ha, hb, rfl⟩ := h
    exact ⟨a, ha, b, hb, rfl⟩

theorem requireNodes_eq_ok (value : Value) (place : NodeSetPlace) (nodes : List Address) :
    value.requireNodes place = .ok nodes ↔ value = .nodes nodes := by
  cases value <;> simp [Value.requireNodes]

section Lists
variable {follow : Address → Except XPathError (List Address)}

theorem gather_cons_eq_ok (node : Address) (rest reached : List Address) :
    gather follow (node :: rest) = .ok reached ↔
      ∃ first others, follow node = .ok first ∧ gather follow rest = .ok others ∧
        reached = first ++ others := by
  rw [gather]
  exact bind_bind_eq_ok

/-- Gathering succeeds when every node can be followed. -/
theorem gather_succeeds_iff (nodes : List Address) :
    (∃ reached, gather follow nodes = .ok reached) ↔
      ∀ n ∈ nodes, ∃ found, follow n = .ok found := by
  induction nodes with
  | nil => simp [gather]
  | cons node rest ih =>
    simp only [gather_cons_eq_ok, List.forall_mem_cons, ← ih]
    constructor
    · intro h
      obtain ⟨_, first, others, hfirst, hothers, rfl⟩ := h
      exact ⟨⟨first, hfirst⟩, others, hothers⟩
    · intro h
      obtain ⟨⟨first, hfirst⟩, others, hothers⟩ := h
      exact ⟨_, first, others, hfirst, hothers, rfl⟩

theorem mem_gather (nodes reached : List Address) (h : gather follow nodes = .ok reached)
    (m : Address) :
    m ∈ reached ↔ ∃ n ∈ nodes, ∃ found, follow n = .ok found ∧ m ∈ found := by
  induction nodes generalizing reached with
  | nil =>
    obtain rfl : [] = reached := Except.ok.inj h
    simp
  | cons node rest ih =>
    obtain ⟨first, others, hfirst, hothers, rfl⟩ := (gather_cons_eq_ok node rest reached).mp h
    simp [ih others hothers, hfirst]

end Lists

theorem keepNodes_cons_eq_ok (predicate : Context → Except XPathError Value)
    (root node : Address) (size position : Nat) (rest kept : List Address) :
    keepNodes predicate root size position (node :: rest) = .ok kept ↔
      ∃ value others, predicate ⟨node, root, position, size⟩ = .ok value ∧
        keepNodes predicate root size (position + 1) rest = .ok others ∧
        kept = if value.keeps position then node :: others else others := by
  rw [keepNodes]
  exact bind_bind_eq_ok

/-- A predicate succeeds on some nodes when it does at each of them, at its place. -/
theorem keepNodes_succeeds_iff (predicate : Context → Except XPathError Value) (root : Address)
    (size position : Nat) (nodes : List Address) :
    (∃ kept, keepNodes predicate root size position nodes = .ok kept) ↔
      ∀ x i, nodes[i]? = some x →
        ∃ value, predicate ⟨x, root, position + i, size⟩ = .ok value := by
  induction nodes generalizing position with
  | nil => simp [keepNodes]
  | cons node rest ih =>
    have hrest := ih (position + 1)
    simp only [Nat.add_assoc, Nat.add_comm 1] at hrest
    have hplaces : (∀ x i, (node :: rest)[i]? = some x →
        ∃ value, predicate ⟨x, root, position + i, size⟩ = .ok value) ↔
          (∃ value, predicate ⟨node, root, position, size⟩ = .ok value) ∧
            ∃ others, keepNodes predicate root size (position + 1) rest = .ok others := by
      rw [hrest]
      constructor
      · intro h
        exact ⟨h node 0 rfl, fun x i hx => h x (i + 1) hx⟩
      · intro h x i hx
        obtain ⟨hnode, hothers⟩ := h
        cases i with
        | zero =>
          obtain rfl : node = x := Option.some.inj hx
          exact hnode
        | succ i => exact hothers x i hx
    simp only [keepNodes_cons_eq_ok, hplaces]
    constructor
    · intro h
      obtain ⟨_, value, others, hvalue, hothers, rfl⟩ := h
      exact ⟨⟨value, hvalue⟩, others, hothers⟩
    · intro h
      obtain ⟨⟨value, hvalue⟩, others, hothers⟩ := h
      exact ⟨_, value, others, hvalue, hothers, rfl⟩

theorem keepNodes_sublist (predicate : Context → Except XPathError Value) (root : Address)
    (size position : Nat) (nodes kept : List Address)
    (h : keepNodes predicate root size position nodes = .ok kept) : kept.Sublist nodes := by
  induction nodes generalizing position kept with
  | nil =>
    obtain rfl : [] = kept := Except.ok.inj h
    exact List.Sublist.refl _
  | cons node rest ih =>
    obtain ⟨value, others, _, hothers, rfl⟩ :=
      (keepNodes_cons_eq_ok predicate root node size position rest kept).mp h
    split
    · exact (ih _ _ hothers).cons_cons node
    · exact (ih _ _ hothers).cons node

section Tree
variable (tree : Tree)

theorem narrow_cons_eq_ok (predicate : Expr) (rest : List Expr) (root : Address)
    (nodes result : List Address) :
    narrow tree (predicate :: rest) root nodes = .ok result ↔
      ∃ kept, keepNodes (fun context => evaluate tree predicate context) root nodes.length 1
          nodes = .ok kept ∧ narrow tree rest root kept = .ok result := by
  rw [narrow, bind_eq_ok]

/-- Predicates only leave nodes out. -/
theorem narrow_sublist (predicates : List Expr) (root : Address) (nodes result : List Address)
    (h : narrow tree predicates root nodes = .ok result) : result.Sublist nodes := by
  induction predicates generalizing nodes with
  | nil =>
    obtain rfl : nodes = result := Except.ok.inj ((narrow_nil tree root nodes).symm.trans h)
    exact List.Sublist.refl _
  | cons predicate rest ih =>
    obtain ⟨kept, hkept, hrest⟩ := (narrow_cons_eq_ok tree predicate rest root nodes result).mp h
    exact (ih kept hrest).trans (keepNodes_sublist _ root _ _ nodes kept hkept)

theorem evaluateAll_cons_eq_ok (e : Expr) (rest : List Expr) (context : Context)
    (values : List Value) :
    evaluateAll tree (e :: rest) context = .ok values ↔
      ∃ value others, evaluate tree e context = .ok value ∧
        evaluateAll tree rest context = .ok others ∧ values = value :: others := by
  rw [evaluateAll]
  exact bind_bind_eq_ok

theorem evaluate_path_eq_ok (start : PathStart) (steps : List Step) (context : Context)
    (value : Value) :
    evaluate tree (.path start steps) context = .ok value ↔
      ∃ starts nodes, startNodes tree start context = .ok starts ∧
        walk tree steps context.root starts = .ok nodes ∧ value = .nodes nodes := by
  rw [evaluate]
  exact bind_bind_eq_ok

theorem evaluate_filter_eq_ok (base : Expr) (predicates : List Expr) (context : Context)
    (value : Value) :
    evaluate tree (.filter base predicates) context = .ok value ↔
      ∃ found nodes, evaluate tree base context = .ok (.nodes found) ∧
        narrow tree predicates context.root found = .ok nodes ∧ value = .nodes nodes := by
  simp only [evaluate, bind_eq_ok, pure, Except.pure, Except.ok.injEq, requireNodes_eq_ok]
  constructor
  · intro h
    obtain ⟨_, hbase, found, rfl, nodes, hnodes, rfl⟩ := h
    exact ⟨found, nodes, hbase, hnodes, rfl⟩
  · intro h
    obtain ⟨found, nodes, hbase, hnodes, rfl⟩ := h
    exact ⟨_, hbase, found, rfl, nodes, hnodes, rfl⟩

theorem startNodes_expr_eq_ok (e : Expr) (context : Context) (nodes : List Address) :
    startNodes tree (.expr e) context = .ok nodes ↔
      evaluate tree e context = .ok (.nodes nodes) := by
  simp only [startNodes, bind_eq_ok, requireNodes_eq_ok]
  constructor
  · intro h
    obtain ⟨_, he, rfl⟩ := h
    exact he
  · intro he
    exact ⟨_, he, rfl⟩

theorem evaluate_call_eq_ok (function : String) (arguments : List Expr) (context : Context)
    (value : Value) :
    evaluate tree (.call function arguments) context = .ok value ↔
      ∃ values, evaluateAll tree arguments context = .ok values ∧
        callFunction tree context function values = .ok value := by
  rw [evaluate, bind_eq_ok]

theorem evaluate_negate_eq_ok (operand : Expr) (context : Context) (value : Value) :
    evaluate tree (.negate operand) context = .ok value ↔
      ∃ found, evaluate tree operand context = .ok found ∧
        value = .number (found.toNumber tree).neg := by
  simp only [evaluate, bind_eq_ok, pure, Except.pure, Except.ok.injEq, eq_comm (a := value)]

/-- The right operand of a disjunction counts only when the left one is false. -/
theorem evaluate_or_eq_ok (left right : Expr) (context : Context) (value : Value) :
    evaluate tree (.binary .or left right) context = .ok value ↔
      ∃ l, evaluate tree left context = .ok l ∧
        (l.toBool = true ∧ value = .boolean true ∨
          l.toBool = false ∧ ∃ r, evaluate tree right context = .ok r ∧
            value = .boolean r.toBool) := by
  rw [evaluate, bind_eq_ok]
  refine exists_congr fun l => and_congr_right fun _ => ?_
  cases l.toBool with
  | true => simp [eq_comm (a := value)]
  | false => simp [bind_eq_ok, pure, Except.pure, eq_comm (a := value)]

/-- The right operand of a conjunction counts only when the left one is true. -/
theorem evaluate_and_eq_ok (left right : Expr) (context : Context) (value : Value) :
    evaluate tree (.binary .and left right) context = .ok value ↔
      ∃ l, evaluate tree left context = .ok l ∧
        (l.toBool = false ∧ value = .boolean false ∨
          l.toBool = true ∧ ∃ r, evaluate tree right context = .ok r ∧
            value = .boolean r.toBool) := by
  rw [evaluate, bind_eq_ok]
  refine exists_congr fun l => and_congr_right fun _ => ?_
  cases l.toBool with
  | true => simp [bind_eq_ok, pure, Except.pure, eq_comm (a := value)]
  | false => simp [eq_comm (a := value)]

theorem evaluate_binary_eq_ok (operator : Operator) (hor : operator ≠ .or)
    (hand : operator ≠ .and) (left right : Expr) (context : Context) (value : Value) :
    evaluate tree (.binary operator left right) context = .ok value ↔
      ∃ l r, evaluate tree left context = .ok l ∧ evaluate tree right context = .ok r ∧
        operator.apply tree l r = .ok value := by
  cases operator with
  | or => exact absurd rfl hor
  | and => exact absurd rfl hand
  | comparison relation => simp only [evaluate, bind_eq_ok, exists_and_left]
  | arithmetic operation => simp only [evaluate, bind_eq_ok, exists_and_left]
  | union => simp only [evaluate, bind_eq_ok, exists_and_left]

end Tree

end XPathQuery
