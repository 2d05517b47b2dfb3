import XPathQuery.Expr.Basic

/-!
Equality of expressions can be decided, by comparing them part by part.
-/
namespace XPathQuery

mutual

def Expr.same : Expr → Expr → Bool
  | .literal text, .literal text' => text == text'
  | .number value, .number value' => value == value'
  | .path start steps, .path start' steps' => start.same start' && sameSteps steps steps'
  | .filter base predicates, .filter base' predicates' =>
      base.same base' && sameAll predicates predicates'
  | .call function arguments, .call function' arguments' =>
      function == function' && sameAll arguments arguments'
  | .binary operator left right, .binary operator' left' right' =>
      operator == operator' && (left.same left' && right.same right')
  | .negate operand, .negate operand' => operand.same operand'
  | _, _ => false

def PathStart.same : PathStart → PathStart → Bool
  | .root, .root => true
  | .context, .context => true
  | .expr e, .expr e' => e.same e'
  | _, _ => false

def sameSteps : List Step → List Step → Bool
  | [], [] => true
  | .step axis test predicates :: rest, .step axis' test' predicates' :: rest' =>
      axis == axis' && (test == test' && (sameAll predicates predicates' && sameSteps rest rest'))
  | _, _ => false

def sameAll : List Expr → List Expr → Bool
  | [], [] => true
  | e :: rest, e' :: rest' => e.same e' && sameAll rest rest'
  | _, _ => false

end

mutual

theorem Expr.same_iff (e e' : Expr) : e.same e' = true ↔ e = e' := by
  cases e with
  | literal text => cases e' <;> simp [Expr.same]
  | number value => cases e' <;> simp [Expr.same]
  | path start steps =>
    cases e' <;> simp [Expr.same, PathStart.same_iff start, sameSteps_iff steps]
  | filter base predicates =>
    cases e' <;> simp [Expr.same, Expr.same_iff base, sameAll_iff predicates]
  | call function arguments => cases e' <;> simp [Expr.same, sameAll_iff arguments]
  | binary operator left right =>
    cases e' <;> simp [Expr.same, Expr.same_iff left, Expr.same_iff right]
  | negate operand => cases e' <;> simp [Expr.same, Expr.same_iff operand]

theorem PathStart.same_iff (start start' : PathStart) :
    start.same start' = true ↔ start = start' := by
  cases start with
  | root => cases start' <;> simp [PathStart.same]
  | context => cases start' <;> simp [PathStart.same]
  | expr e => cases start' <;> simp [PathStart.same, Expr.same_iff e]

theorem sameSteps_iff (steps steps' : List Step) :
    sameSteps steps steps' = true ↔ steps = steps' := by
  match steps, steps' with
  | [], [] => simp [sameSteps]
  | [], _ :: _ => simp [sameSteps]
  | .step axis test predicates :: rest, [] => simp [sameSteps]
  | .step axis test predicates :: rest, .step axis' test' predicates' :: rest' =>
    simp [sameSteps, sameAll_iff predicates, sameSteps_iff rest, and_assoc]

theorem sameAll_iff (es es' : List Expr) : sameAll es es' = true ↔ es = es' := by
  match es, es' with
  | [], [] => simp [sameAll]
  | [], _ :: _ => simp [sameAll]
  | e :: rest, [] => simp [sameAll]
  | e :: rest, e' :: rest' => simp [sameAll, Expr.same_iff e, sameAll_iff rest]

end

instance : DecidableEq Expr := fun e e' => decidable_of_iff _ (Expr.same_iff e e')

end XPathQuery
