import XPathQuery.Proofs.FunctionTypes
import XPathQuery.Proofs.Subexpressions

/-!
Static types. The type of a value can be read off the expression. An expression is
well-typed when, at every depth, node-sets are asked for only where expressions of
that type stand. Typed or not, any value of an expression has its static type.
-/
namespace XPathQuery

def Operator.resultType : Operator → ValueType
  | .or | .and | .comparison _ => .boolean
  | .arithmetic _ => .number
  | .union => .nodeSet

namespace Expr

/-- The type of an expression. A call of an unknown function never has a value, so the
type given to it does not matter. -/
def staticType : Expr → ValueType
  | literal _ => .string
  | number _ => .number
  | path .. => .nodeSet
  | filter .. => .nodeSet
  | call function _ =>
      ((CoreFunction.ofName? function).map CoreFunction.resultType).getD .boolean
  | binary operator _ _ => operator.resultType
  | negate _ => .number

theorem staticType_call_ne (function : String) (arguments : List Expr) :
    (call function arguments).staticType ≠ .nodeSet := by
  rw [staticType]
  cases CoreFunction.ofName? function with
  | none => decide
  | some f => exact f.resultType_ne_nodeSet

def PartsTyped : Expr → Prop
  | path (.expr start) _ => start.staticType = .nodeSet
  | filter base _ => base.staticType = .nodeSet
  | binary .union left right => left.staticType = .nodeSet ∧ right.staticType = .nodeSet
  | call function arguments =>
      ∀ f, CoreFunction.ofName? function = some f → f.takesNodes = true →
        ∀ argument ∈ arguments, argument.staticType = .nodeSet
  | _ => True

def WellTyped (e : Expr) : Prop := e.Everywhere PartsTyped

end Expr

theorem Value.union_eq_nodes (left right : Value) (nodes : List Address)
    (h : left.union right = .ok (.nodes nodes)) :
    ∃ l r, left = .nodes l ∧ right = .nodes r ∧ nodes = NodeSet.ofList (l ++ r) := by
  cases left with
  | scalar s => cases h
  | nodes l =>
    cases right with
    | scalar s => cases h
    | nodes r => exact ⟨l, r, rfl, rfl, (Value.nodes.inj (Except.ok.inj h)).symm⟩

theorem Operator.apply_type (tree : Tree) (operator : Operator) (left right value : Value)
    (h : operator.apply tree left right = .ok value) : value.type = operator.resultType := by
  cases operator with
  | union =>
    cases left with
    | scalar s => cases h
    | nodes l =>
      cases right with
      | scalar s => cases h
      | nodes r =>
        obtain rfl := Except.ok.inj h
        rfl
  | or =>
    obtain rfl := Except.ok.inj h
    rfl
  | and =>
    obtain rfl := Except.ok.inj h
    rfl
  | comparison relation =>
    obtain rfl := Except.ok.inj h
    rfl
  | arithmetic operation =>
    obtain rfl := Except.ok.inj h
    rfl

/-- Only a union can fail, and never on node-sets. -/
theorem Operator.apply_succeeds (tree : Tree) (operator : Operator) (left right : Value)
    (h : operator = .union → left.type = .nodeSet ∧ right.type = .nodeSet) :
    ∃ value, operator.apply tree left right = .ok value := by
  cases operator with
  | union =>
    obtain ⟨l, rfl⟩ := left.eq_nodes_of_type (h rfl).1
    obtain ⟨r, rfl⟩ := right.eq_nodes_of_type (h rfl).2
    exact ⟨_, rfl⟩
  | _ => exact ⟨_, rfl⟩

section Evaluation
variable (tree : Tree)

theorem evaluate_binary_type (operator : Operator) (left right : Expr) (context : Context)
    (value : Value)
    (h : evaluate tree (.binary operator left right) context = .ok value) :
    value.type = operator.resultType := by
  by_cases hor : operator = .or
  · subst hor
    obtain ⟨l, _, ⟨_, rfl⟩ | ⟨_, r, _, rfl⟩⟩ := (evaluate_or_eq_ok tree _ _ _ _).mp h
    · rfl
    · rfl
  by_cases hand : operator = .and
  · subst hand
    obtain ⟨l, _, ⟨_, rfl⟩ | ⟨_, r, _, rfl⟩⟩ := (evaluate_and_eq_ok tree _ _ _ _).mp h
    · rfl
    · rfl
  obtain ⟨l, r, _, _, happly⟩ := (evaluate_binary_eq_ok tree operator hor hand _ _ _ _).mp h
  exact operator.apply_type tree l r value happly

/-- A value has the type of its expression. -/
theorem evaluate_type (e : Expr) (context : Context) (value : Value)
    (h : evaluate tree e context = .ok value) : value.type = e.staticType := by
  cases e with
  | literal text =>
    obtain rfl := Except.ok.inj ((evaluate_literal tree context text).symm.trans h)
    rfl
  | number n =>
    obtain rfl := Except.ok.inj ((evaluate_number tree context n).symm.trans h)
    rfl
  | path start steps =>
    obtain ⟨starts, nodes, _, _, rfl⟩ := (evaluate_path_eq_ok tree start steps context _).mp h
    rfl
  | filter base predicates =>
    obtain ⟨found, nodes, _, _, rfl⟩ :=
      (evaluate_filter_eq_ok tree base predicates context _).mp h
    rfl
  | call function arguments =>
    obtain ⟨values, _, hcall⟩ := (evaluate_call_eq_ok tree function arguments context _).mp h
    obtain ⟨f, hf⟩ := exists_of_callFunction_eq_ok tree context function values value hcall
    have htype := callFunction_type tree context function f hf values value hcall
    simpa [Expr.staticType, hf] using htype
  | binary operator left right =>
    exact evaluate_binary_type tree operator left right context value h
  | negate operand =>
    obtain ⟨found, _, rfl⟩ := (evaluate_negate_eq_ok tree operand context _).mp h
    rfl

/-- Arguments and their values correspond one to one, types included. -/
theorem evaluateAll_types (es : List Expr) (context : Context) (values : List Value)
    (h : evaluateAll tree es context = .ok values) :
    values.map Value.type = es.map Expr.staticType := by
  induction es generalizing values with
  | nil =>
    obtain rfl := Except.ok.inj ((evaluateAll_nil tree context).symm.trans h)
    rfl
  | cons e rest ih =>
    obtain ⟨value, others, hvalue, hothers, rfl⟩ :=
      (evaluateAll_cons_eq_ok tree e rest context values).mp h
    rw [List.map_cons, List.map_cons, ih others hothers, evaluate_type tree e context value hvalue]

theorem length_of_evaluateAll (es : List Expr) (context : Context) (values : List Value)
    (h : evaluateAll tree es context = .ok values) : values.length = es.length := by
  simpa using congrArg List.length (evaluateAll_types tree es context values h)

end Evaluation

end XPathQuery
