import XPathQuery.Expr.Basic
import Mathlib.Logic.Relation

/-!
Subexpressions. The parts of an expression are the expressions it is directly made
of: the start of a path and the predicates of its steps, a filtered expression and its
predicates, arguments and operands. Properties of all expressions are proved by
induction over parts, and `Within` reaches the parts at any depth.
-/
namespace XPathQuery

def Step.test : Step → NodeTest
  | .step _ test _ => test

def Step.predicates : Step → List Expr
  | .step _ _ predicates => predicates

def PathStart.parts : PathStart → List Expr
  | .expr e => [e]
  | _ => []

def Expr.parts : Expr → List Expr
  | .path start steps => start.parts ++ steps.flatMap Step.predicates
  | .filter base predicates => base :: predicates
  | .call _ arguments => arguments
  | .binary _ left right => [left, right]
  | .negate operand => [operand]
  | _ => []

namespace Expr

theorem sizeOf_lt_of_mem_parts (e part : Expr) (h : part ∈ e.parts) :
    sizeOf part < sizeOf e := by
  cases e with
  | literal text => cases h
  | number value => cases h
  | path start steps =>
    rcases List.mem_append.mp h with h | h
    · cases start with
      | root => cases h
      | context => cases h
      | expr start =>
        obtain rfl := List.mem_singleton.mp h
        simp only [path.sizeOf_spec, PathStart.expr.sizeOf_spec]
        omega
    · obtain ⟨step, hstep, h⟩ := List.mem_flatMap.mp h
      cases step with
      | step axis test predicates =>
        have hpart := List.sizeOf_lt_of_mem h
        have hlist := List.sizeOf_lt_of_mem hstep
        simp only [path.sizeOf_spec, Step.predicates, Step.step.sizeOf_spec] at hpart hlist ⊢
        omega
  | filter base predicates =>
    rcases List.mem_cons.mp h with rfl | h
    · simp only [filter.sizeOf_spec]
      omega
    · have hpart := List.sizeOf_lt_of_mem h
      simp only [filter.sizeOf_spec]
      omega
  | call function arguments =>
    have hpart : sizeOf part < sizeOf arguments := List.sizeOf_lt_of_mem h
    simp only [call.sizeOf_spec]
    omega
  | binary operator left right =>
    simp only [parts, List.mem_cons, List.not_mem_nil, or_false] at h
    rcases h with rfl | rfl
    · simp only [binary.sizeOf_spec]
      omega
    · simp only [binary.sizeOf_spec]
      omega
  | negate operand =>
    obtain rfl := List.mem_singleton.mp h
    simp only [negate.sizeOf_spec]
    omega

/-- Induction over an expression, with the hypothesis for each of its parts. -/
theorem induct {P : Expr → Prop} (step : ∀ e, (∀ part ∈ e.parts, P part) → P e) (e : Expr) :
    P e :=
  step e fun part h =>
    have := sizeOf_lt_of_mem_parts e part h
    induct step part
termination_by sizeOf e

/-- `part` is `e` or occurs in it, at any depth. -/
def Within (part e : Expr) : Prop := Relation.ReflTransGen (fun a b => a ∈ b.parts) part e

theorem within_refl (e : Expr) : Within e e := Relation.ReflTransGen.refl

theorem within_of_mem_parts {e part sub : Expr} (hpart : part ∈ e.parts)
    (h : Within sub part) : Within sub e := Relation.ReflTransGen.tail h hpart

/-- What occurs in an expression is the expression or occurs in a part of it. -/
theorem within_iff (e sub : Expr) : Within sub e ↔ sub = e ∨ ∃ part ∈ e.parts, Within sub part := by
  constructor
  · intro h
    rcases Relation.ReflTransGen.cases_tail h with rfl | ⟨part, hsub, hpart⟩
    · exact Or.inl rfl
    · exact Or.inr ⟨part, hpart, hsub⟩
  · intro h
    rcases h with rfl | ⟨part, hpart, h⟩
    · exact within_refl sub
    · exact within_of_mem_parts hpart h

def Everywhere (P : Expr → Prop) (e : Expr) : Prop := ∀ sub, Within sub e → P sub

theorem everywhere_iff (P : Expr → Prop) (e : Expr) :
    Everywhere P e ↔ P e ∧ ∀ part ∈ e.parts, Everywhere P part := by
  constructor
  · intro h
    exact ⟨h e (within_refl e), fun part hpart sub hsub => h sub (within_of_mem_parts hpart hsub)⟩
  · intro h sub hsub
    obtain ⟨he, hparts⟩ := h
    rcases (within_iff e sub).mp hsub with rfl | ⟨part, hpart, hsub⟩
    · exact he
    · exact hparts part hpart sub hsub

end Expr

end XPathQuery
