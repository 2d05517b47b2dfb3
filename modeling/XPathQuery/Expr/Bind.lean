import XPathQuery.Expr.Basic
import XPathQuery.Function.Core

/-!
Binding an expression. Every prefix of a name test is replaced by the namespace
it stands for, and every call is checked against a registry. The first prefix or
call that fails, reading from left to right and a call before its arguments, is
the error. Names without a prefix stay without a namespace.
-/
namespace XPathQuery

/-- Gives the namespace of a prefix, if it has one. -/
abbrev Resolver := String → Option String

namespace NodeTest

/-- An empty namespace counts as none at all. -/
def bindPrefix (resolver : Resolver) (nsPrefix : String) : Except XPathError String :=
  match resolver nsPrefix with
  | some uri => if uri = "" then .error (.unboundPrefix nsPrefix) else .ok uri
  | none => .error (.unboundPrefix nsPrefix)

def bind (resolver : Resolver) : NodeTest → Except XPathError NodeTest
  | .name (some nsPrefix) localPart _ => do
      return .name (some nsPrefix) localPart (some (← bindPrefix resolver nsPrefix))
  | .name none localPart _ => .ok (.name none localPart none)
  | .namespaceWildcard nsPrefix _ => do
      return .namespaceWildcard nsPrefix (some (← bindPrefix resolver nsPrefix))
  | test => .ok test

end NodeTest

mutual

def Expr.bind (resolver : Resolver) (registry : Registry) : Expr → Except XPathError Expr
  | .literal text => .ok (.literal text)
  | .number value => .ok (.number value)
  | .path start steps => do
      let start ← start.bind resolver registry
      let steps ← bindSteps resolver registry steps
      return .path start steps
  | .filter base predicates => do
      let base ← base.bind resolver registry
      let predicates ← bindAll resolver registry predicates
      return .filter base predicates
  | .call function arguments => do
      registry.validate function arguments.length
      let arguments ← bindAll resolver registry arguments
      return .call function arguments
  | .binary operator left right => do
      let left ← left.bind resolver registry
      let right ← right.bind resolver registry
      return .binary operator left right
  | .negate operand => do
      let operand ← operand.bind resolver registry
      return .negate operand

def PathStart.bind (resolver : Resolver) (registry : Registry) :
    PathStart → Except XPathError PathStart
  | .root => .ok .root
  | .context => .ok .context
  | .expr e => do
      let e ← e.bind resolver registry
      return .expr e

def bindSteps (resolver : Resolver) (registry : Registry) :
    List Step → Except XPathError (List Step)
  | [] => .ok []
  | .step axis test predicates :: rest => do
      let test ← test.bind resolver
      let predicates ← bindAll resolver registry predicates
      let rest ← bindSteps resolver registry rest
      return .step axis test predicates :: rest

def bindAll (resolver : Resolver) (registry : Registry) :
    List Expr → Except XPathError (List Expr)
  | [] => .ok []
  | e :: rest => do
      let e ← e.bind resolver registry
      let rest ← bindAll resolver registry rest
      return e :: rest

end

end XPathQuery
