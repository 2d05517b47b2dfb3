import XPathQuery.Proofs.ComparedResults

/-!
Eager evaluation. An eager evaluator takes the value of both operands before it applies or
or and, as it does for all other operators, at every depth of an expression. It fails more
often, since it meets operands that are otherwise left alone. Where it does not fail, both
ways to evaluate give the same value.
-/
namespace XPathQuery

mutual

def evaluateEagerly (tree : Tree) : Expr → Context → Except XPathError Value
  | .literal text, _ => .ok (.string text)
  | .number value, _ => .ok (.number value)
  | .path start steps, context => do
      let nodes ← startEagerly tree start context
      let nodes ← walkEagerly tree steps context.root nodes
      return .nodes nodes
  | .filter base predicates, context => do
      let value ← evaluateEagerly tree base context
      let nodes ← value.requireNodes .filterBase
      let nodes ← narrowEagerly tree predicates context.root nodes
      return .nodes nodes
  | .call function arguments, context => do
      let values ← evaluateAllEagerly tree arguments context
      callFunction tree context function values
  | .binary operator left right, context => do
      let leftValue ← evaluateEagerly tree left context
      let rightValue ← evaluateEagerly tree right context
      operator.apply tree leftValue rightValue
  | .negate operand, context => do
      let value ← evaluateEagerly tree operand context
      return .number (value.toNumber tree).neg

def evaluateAllEagerly (tree : Tree) : List Expr → Context → Except XPathError (List Value)
  | [], _ => .ok []
  | e :: rest, context => do
      let value ← evaluateEagerly tree e context
      let values ← evaluateAllEagerly tree rest context
      return value :: values

def startEagerly (tree : Tree) : PathStart → Context → Except XPathError (List Address)
  | .root, context => .ok [context.root]
  | .context, context => .ok [context.node]
  | .expr e, context => do
      let value ← evaluateEagerly tree e context
      value.requireNodes .pathStart

def walkEagerly (tree : Tree) : List Step → Address → List Address →
    Except XPathError (List Address)
  | [], _, nodes => .ok nodes
  | .step axis test predicates :: rest, root, nodes => do
      let reached ← gather
        (fun node => narrowEagerly tree predicates root (tree.stepNodes axis test node)) nodes
      walkEagerly tree rest root (NodeSet.ofList reached)

def narrowEagerly (tree : Tree) : List Expr → Address → List Address →
    Except XPathError (List Address)
  | [], _, nodes => .ok nodes
  | predicate :: rest, root, nodes => do
      let kept ← keepNodes (fun context => evaluateEagerly tree predicate context) root
        nodes.length 1 nodes
      narrowEagerly tree rest root kept

end

section Refinement
variable (tree : Tree)

/-- An operator that is applied to two values is given the same ones by both evaluators, and
when or and and leave the right value alone, the left one decides by itself. -/
theorem apply_refines_evaluate_binary (operator : Operator) (left right : Expr)
    (context : Context) {leftEager rightEager : Except XPathError Value}
    (hleft : Refines leftEager (evaluate tree left context))
    (hright : Refines rightEager (evaluate tree right context)) :
    Refines (leftEager >>= fun l => rightEager >>= fun r => operator.apply tree l r)
      (evaluate tree (.binary operator left right) context) := by
  intro value h
  obtain ⟨l, hl, h⟩ := bind_eq_ok.mp h
  obtain ⟨r, hr, happly⟩ := bind_eq_ok.mp h
  have hl := hleft l hl
  have hr := hright r hr
  by_cases hor : operator = .or
  · subst hor
    obtain rfl := Except.ok.inj happly
    rw [evaluate_or_eq_ok]
    cases hdecided : l.toBool with
    | true => exact ⟨l, hl, Or.inl ⟨hdecided, rfl⟩⟩
    | false => exact ⟨l, hl, Or.inr ⟨hdecided, r, hr, rfl⟩⟩
  by_cases hand : operator = .and
  · subst hand
    obtain rfl := Except.ok.inj happly
    rw [evaluate_and_eq_ok]
    cases hdecided : l.toBool with
    | true => exact ⟨l, hl, Or.inr ⟨hdecided, r, hr, rfl⟩⟩
    | false => exact ⟨l, hl, Or.inl ⟨hdecided, rfl⟩⟩
  exact (evaluate_binary_eq_ok tree operator hor hand left right context value).mpr
    ⟨l, r, hl, hr, happly⟩

mutual

/-- By induction along the evaluators. Predicates are smaller than the step that holds them, so
their loops over the nodes only need the fact about the predicate at every context. -/
theorem evaluateEagerly_refines (e : Expr) (context : Context) :
    Refines (evaluateEagerly tree e context) (evaluate tree e context) := by
  cases e with
  | literal text =>
    rw [evaluateEagerly, evaluate]
    exact Refines.refl _
  | number value =>
    rw [evaluateEagerly, evaluate]
    exact Refines.refl _
  | path start steps =>
    rw [evaluateEagerly, evaluate]
    exact (startEagerly_refines start context).bind fun nodes _ =>
      (walkEagerly_refines steps context.root nodes).bind fun _ _ => Refines.refl _
  | filter base predicates =>
    rw [evaluateEagerly, evaluate]
    exact (evaluateEagerly_refines base context).bind fun value _ =>
      (Refines.refl _).bind fun nodes _ =>
        (narrowEagerly_refines predicates context.root nodes).bind fun _ _ => Refines.refl _
  | call function arguments =>
    rw [evaluateEagerly, evaluate]
    exact (evaluateAllEagerly_refines arguments context).bind fun _ _ => Refines.refl _
  | binary operator left right =>
    rw [evaluateEagerly]
    exact apply_refines_evaluate_binary tree operator left right context
      (evaluateEagerly_refines left context) (evaluateEagerly_refines right context)
  | negate operand =>
    rw [evaluateEagerly, evaluate]
    exact (evaluateEagerly_refines operand context).bind fun _ _ => Refines.refl _

theorem evaluateAllEagerly_refines (es : List Expr) (context : Context) :
    Refines (evaluateAllEagerly tree es context) (evaluateAll tree es context) := by
  cases es with
  | nil =>
    rw [evaluateAllEagerly, evaluateAll]
    exact Refines.refl _
  | cons e rest =>
    rw [evaluateAllEagerly, evaluateAll]
    exact (evaluateEagerly_refines e context).bind fun value _ =>
      (evaluateAllEagerly_refines rest context).bind fun _ _ => Refines.refl _

theorem startEagerly_refines (start : PathStart) (context : Context) :
    Refines (startEagerly tree start context) (startNodes tree start context) := by
  cases start with
  | root =>
    rw [startEagerly, startNodes]
    exact Refines.refl _
  | context =>
    rw [startEagerly, startNodes]
    exact Refines.refl _
  | expr e =>
    rw [startEagerly, startNodes]
    exact (evaluateEagerly_refines e context).bind fun _ _ => Refines.refl _

theorem walkEagerly_refines (steps : List Step) (root : Address) (nodes : List Address) :
    Refines (walkEagerly tree steps root nodes) (walk tree steps root nodes) := by
  cases steps with
  | nil =>
    rw [walkEagerly, walk]
    exact Refines.refl _
  | cons step rest =>
    cases step with
    | step axis test predicates =>
      rw [walkEagerly, walk]
      have hgather := gather_refines nodes fun node _ =>
        narrowEagerly_refines predicates root (tree.stepNodes axis test node)
      exact hgather.bind fun reached _ => walkEagerly_refines rest root (NodeSet.ofList reached)

theorem narrowEagerly_refines (predicates : List Expr) (root : Address)
    (nodes : List Address) :
    Refines (narrowEagerly tree predicates root nodes) (narrow tree predicates root nodes) := by
  cases predicates with
  | nil =>
    rw [narrowEagerly, narrow]
    exact Refines.refl _
  | cons predicate rest =>
    rw [narrowEagerly, narrow]
    have hkeep := keepNodes_refines (fun context => evaluateEagerly_refines predicate context)
      root nodes.length 1 nodes
    exact hkeep.bind fun kept _ => narrowEagerly_refines rest root kept

end

end Refinement

/-- Whenever eager evaluation succeeds, evaluation that leaves operands alone succeeds with
the same value. -/
theorem evaluate_eq_of_evaluateEagerly_eq (tree : Tree) (e : Expr) (context : Context)
    (value : Value) (h : evaluateEagerly tree e context = .ok value) :
    evaluate tree e context = .ok value :=
  evaluateEagerly_refines tree e context value h

/-- An operand that has no value keeps only eager evaluation from one. -/
example :
    let tree : Tree := .node ⟨.root, none, none, "", []⟩ [] []
    let e : Expr := .binary .or (.call "true" []) (.call "count" [.literal ""])
    (evaluate tree e (.ofNode [])).toOption = some (.boolean true) ∧
      (evaluateEagerly tree e (.ofNode [])).toOption = none := by
  decide

/-- A predicate joins what it asks of each child, and both evaluators choose the second. -/
theorem evaluate_eq_of_evaluateEagerly_eq_joined :
    let comment : Tree := .node ⟨.comment, none, none, "", []⟩ [] []
    let text : Tree := .node ⟨.text, none, none, "t", []⟩ [] []
    let tree : Tree := .node ⟨.root, none, none, "", []⟩ [] [comment, text, comment]
    let self (test : NodeTest) : Expr := .path .context [.step .self test []]
    let last : Expr := .binary (.comparison .equal) (.call "position" []) (.call "last" [])
    let e : Expr := .path .root [.step .child .node
      [.binary .and (.binary .or (self .text) last) (.binary .or last (self .text)),
        .binary .or (self .text) (.binary .and last (self .comment))]]
    evaluateEagerly tree e (.ofNode []) = .ok (.nodes [[.child 1], [.child 2]]) ∧
      evaluate tree e (.ofNode []) = .ok (.nodes [[.child 1], [.child 2]]) := by
  intro comment text tree self last e
  have heager : evaluateEagerly tree e (.ofNode []) = .ok (.nodes [[.child 1], [.child 2]]) :=
    (toOption_eq_some_iff _ _).mp (by decide +kernel)
  exact ⟨heager, evaluate_eq_of_evaluateEagerly_eq tree e _ _ heager⟩

end XPathQuery
