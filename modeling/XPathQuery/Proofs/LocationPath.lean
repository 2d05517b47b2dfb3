import XPathQuery.Proofs.EvaluationSteps
import XPathQuery.Tree.Order

/-!
Location paths as compositions of relations. A step relates a node to the nodes it
selects from it, and a path leads from a start to the nodes at the end of a chain of
steps. Evaluation succeeds exactly when the start is a node-set and every step
selects something, maybe nothing, from every node reached before it. Its result holds
the ends of the chains, so it depends on the set of starts alone.
-/
namespace XPathQuery

def Step.select (tree : Tree) (root : Address) : Step → Address → Except XPathError (List Address)
  | .step axis test predicates, node =>
      narrow tree predicates root (tree.stepNodes axis test node)

/-- A chain of steps from one node to another, each step selecting the next node. -/
inductive Leads (tree : Tree) (root : Address) : List Step → Address → Address → Prop
  | nil (n : Address) : Leads tree root [] n n
  | cons {step : Step} {rest : List Step} {n next m : Address} {found : List Address}
      (hselect : step.select tree root n = .ok found) (hnext : next ∈ found)
      (hrest : Leads tree root rest next m) : Leads tree root (step :: rest) n m

def SelectsAlong (tree : Tree) (root : Address) (steps : List Step) (starts : List Address) :
    Prop :=
  ∀ before step after, steps = before ++ step :: after →
    ∀ n ∈ starts, ∀ m, Leads tree root before n m →
      ∃ found, step.select tree root m = .ok found

def StartsAt (tree : Tree) (context : Context) : PathStart → List Address → Prop
  | .root, starts => starts = [context.root]
  | .context, starts => starts = [context.node]
  | .expr e, starts => evaluate tree e context = .ok (.nodes starts)

theorem startNodes_eq_ok_iff (tree : Tree) (context : Context) (start : PathStart)
    (starts : List Address) :
    startNodes tree start context = .ok starts ↔ StartsAt tree context start starts := by
  cases start with
  | root => simp [StartsAt, eq_comm]
  | context => simp [StartsAt, eq_comm]
  | expr e => exact startNodes_expr_eq_ok tree e context starts

theorem walk_nil_eq_ok (tree : Tree) (root : Address) (starts nodes : List Address) :
    walk tree [] root starts = .ok nodes ↔ starts = nodes := by
  rw [walk_nil, Except.ok.injEq]

theorem walk_cons_eq_ok (tree : Tree) (step : Step) (rest : List Step) (root : Address)
    (starts nodes : List Address) :
    walk tree (step :: rest) root starts = .ok nodes ↔
      ∃ reached, gather (step.select tree root) starts = .ok reached ∧
        walk tree rest root (NodeSet.ofList reached) = .ok nodes := by
  cases step with
  | step axis test predicates =>
    rw [walk, bind_eq_ok]
    rfl

/-- A walk may stop between any two of its steps and go on from there. -/
theorem walk_append {tree : Tree} {root : Address} (before after : List Step)
    (nodes : List Address) :
    walk tree (before ++ after) root nodes =
      (walk tree before root nodes >>= walk tree after root) := by
  induction before generalizing nodes with
  | nil => rw [List.nil_append, walk_nil]; rfl
  | cons step rest ih =>
    cases step with
    | step axis test predicates =>
      simp only [List.cons_append, walk, ih, bind_assoc]

section Walk
variable (tree : Tree) (root : Address)

theorem leads_nil_iff (n m : Address) : Leads tree root [] n m ↔ n = m := by
  constructor
  · intro h
    cases h
    rfl
  · intro h
    subst h
    exact Leads.nil n

theorem leads_cons_iff (step : Step) (rest : List Step) (n m : Address) :
    Leads tree root (step :: rest) n m ↔
      ∃ found, step.select tree root n = .ok found ∧
        ∃ next ∈ found, Leads tree root rest next m := by
  constructor
  · intro h
    rcases h with _ | ⟨hselect, hnext, hrest⟩
    exact ⟨_, hselect, _, hnext, hrest⟩
  · intro h
    obtain ⟨found, hselect, next, hnext, hrest⟩ := h
    exact Leads.cons hselect hnext hrest

theorem selectsAlong_nil (starts : List Address) : SelectsAlong tree root [] starts := by
  intro before step after h
  simp at h

/-- The first step selects at every start, and the others at what it reached. -/
theorem selectsAlong_cons_iff (step : Step) (rest : List Step) (starts reached : List Address)
    (hreached : gather (step.select tree root) starts = .ok reached) :
    SelectsAlong tree root (step :: rest) starts ↔
      SelectsAlong tree root rest (NodeSet.ofList reached) := by
  constructor
  · intro h before next after hsplit n hn m hm
    subst hsplit
    obtain ⟨start, hstart, found, hselect, hfound⟩ :=
      (mem_gather starts reached hreached n).mp (NodeSet.mem_ofList.mp hn)
    exact h (step :: before) next after rfl start hstart m (Leads.cons hselect hfound hm)
  · intro h before next after hsplit n hn m hm
    cases before with
    | nil =>
      obtain ⟨rfl, rfl⟩ := List.cons.inj hsplit
      obtain rfl := (leads_nil_iff tree root n m).mp hm
      exact (gather_succeeds_iff starts).mp ⟨reached, hreached⟩ n hn
    | cons first before =>
      obtain ⟨rfl, hrest⟩ := List.cons.inj hsplit
      obtain ⟨found, hselect, second, hsecond, hm⟩ := (leads_cons_iff tree root _ _ n m).mp hm
      refine h before next after hrest second ?_ m hm
      exact NodeSet.mem_ofList.mpr
        ((mem_gather starts reached hreached second).mpr ⟨n, hn, found, hselect, hsecond⟩)

/-- A walk succeeds when no step fails at a node on the way. -/
theorem walk_succeeds_iff (steps : List Step) (starts : List Address) :
    (∃ nodes, walk tree steps root starts = .ok nodes) ↔
      SelectsAlong tree root steps starts := by
  induction steps generalizing starts with
  | nil =>
    simp only [walk_nil_eq_ok, exists_eq', true_iff]
    exact selectsAlong_nil tree root starts
  | cons step rest ih =>
    constructor
    · intro h
      obtain ⟨nodes, hwalk⟩ := h
      obtain ⟨reached, hreached, hrest⟩ := (walk_cons_eq_ok tree step rest root _ _).mp hwalk
      rw [selectsAlong_cons_iff tree root step rest starts reached hreached, ← ih]
      exact ⟨nodes, hrest⟩
    · intro h
      have hfirst : ∀ n ∈ starts, ∃ found, step.select tree root n = .ok found :=
        fun n hn => h [] step rest rfl n hn n (Leads.nil n)
      obtain ⟨reached, hreached⟩ := (gather_succeeds_iff starts).mpr hfirst
      rw [selectsAlong_cons_iff tree root step rest starts reached hreached, ← ih] at h
      obtain ⟨nodes, hnodes⟩ := h
      exact ⟨nodes, (walk_cons_eq_ok tree step rest root _ _).mpr ⟨reached, hreached, hnodes⟩⟩

/-- A walk ends at the ends of the chains of its steps. -/
theorem mem_walk (steps : List Step) (starts nodes : List Address)
    (h : walk tree steps root starts = .ok nodes) (m : Address) :
    m ∈ nodes ↔ ∃ n ∈ starts, Leads tree root steps n m := by
  induction steps generalizing starts with
  | nil =>
    obtain rfl := (walk_nil_eq_ok tree root starts nodes).mp h
    simp [leads_nil_iff]
  | cons step rest ih =>
    obtain ⟨reached, hreached, hrest⟩ := (walk_cons_eq_ok tree step rest root _ _).mp h
    rw [ih (NodeSet.ofList reached) hrest]
    constructor
    · intro h
      obtain ⟨next, hnext, hm⟩ := h
      obtain ⟨n, hn, found, hselect, hfound⟩ :=
        (mem_gather starts reached hreached next).mp (NodeSet.mem_ofList.mp hnext)
      exact ⟨n, hn, Leads.cons hselect hfound hm⟩
    · intro h
      obtain ⟨n, hn, hm⟩ := h
      obtain ⟨found, hselect, next, hnext, hm⟩ := (leads_cons_iff tree root _ _ n m).mp hm
      refine ⟨next, ?_, hm⟩
      exact NodeSet.mem_ofList.mpr
        ((mem_gather starts reached hreached next).mpr ⟨n, hn, found, hselect, hnext⟩)

theorem selectsAlong_congr (steps : List Step) (starts others : List Address)
    (h : ∀ n, n ∈ starts ↔ n ∈ others) :
    SelectsAlong tree root steps starts ↔ SelectsAlong tree root steps others := by
  simp only [SelectsAlong, h]

end Walk

/-- A path evaluates exactly when its start is a node-set and its steps select at every
node reached along the way. The value then holds the nodes at the ends of the chains
of steps from the start. Of the starts, neither the order nor repetition matters. -/
theorem evaluate_path_eq_chains (tree : Tree) (start : PathStart) (steps : List Step)
    (context : Context) :
    ((∃ value, evaluate tree (.path start steps) context = .ok value) ↔
      ∃ starts, StartsAt tree context start starts ∧
        SelectsAlong tree context.root steps starts) ∧
    (∀ value, evaluate tree (.path start steps) context = .ok value →
      ∃ starts nodes, StartsAt tree context start starts ∧ value = .nodes nodes ∧
        ∀ m, m ∈ nodes ↔ ∃ n ∈ starts, Leads tree context.root steps n m) ∧
    (∀ starts others : List Address, (∀ n, n ∈ starts ↔ n ∈ others) →
      ((∃ nodes, walk tree steps context.root starts = .ok nodes) ↔
        ∃ nodes, walk tree steps context.root others = .ok nodes) ∧
      ∀ nodes nodes', walk tree steps context.root starts = .ok nodes →
        walk tree steps context.root others = .ok nodes' → ∀ m, m ∈ nodes ↔ m ∈ nodes') := by
  refine ⟨⟨?_, ?_⟩, ?_, ?_⟩
  · intro h
    obtain ⟨value, hvalue⟩ := h
    obtain ⟨starts, nodes, hstarts, hwalk, _⟩ :=
      (evaluate_path_eq_ok tree start steps context value).mp hvalue
    exact ⟨starts, (startNodes_eq_ok_iff tree context start starts).mp hstarts,
      (walk_succeeds_iff tree context.root steps starts).mp ⟨nodes, hwalk⟩⟩
  · intro h
    obtain ⟨starts, hstarts, hselects⟩ := h
    obtain ⟨nodes, hwalk⟩ := (walk_succeeds_iff tree context.root steps starts).mpr hselects
    exact ⟨.nodes nodes, (evaluate_path_eq_ok tree start steps context _).mpr
      ⟨starts, nodes, (startNodes_eq_ok_iff tree context start starts).mpr hstarts, hwalk, rfl⟩⟩
  · intro value hvalue
    obtain ⟨starts, nodes, hstarts, hwalk, rfl⟩ :=
      (evaluate_path_eq_ok tree start steps context value).mp hvalue
    exact ⟨starts, nodes, (startNodes_eq_ok_iff tree context start starts).mp hstarts, rfl,
      mem_walk tree context.root steps starts nodes hwalk⟩
  · intro starts others hsame
    constructor
    · rw [walk_succeeds_iff, walk_succeeds_iff,
        selectsAlong_congr tree context.root steps starts others hsame]
    · intro nodes nodes' hnodes hnodes' m
      rw [mem_walk tree context.root steps starts nodes hnodes,
        mem_walk tree context.root steps others nodes' hnodes']
      simp only [hsame]

end XPathQuery
