import XPathQuery.Number.Double
import XPathQuery.Tree.Axis

/-!
Expressions. A location path starts at the root, at the context node or at the
value of an expression, and takes any number of steps. A name test carries the
namespace its prefix stands for once it has been bound; a test without a prefix
never has one.
-/
namespace XPathQuery

inductive Comparison
  | equal
  | notEqual
  | less
  | lessOrEqual
  | greater
  | greaterOrEqual
deriving DecidableEq, Repr

inductive Arithmetic
  | add
  | subtract
  | multiply
  | divide
  | remainder
deriving DecidableEq, Repr

inductive Operator
  | or
  | and
  | comparison (relation : Comparison)
  | arithmetic (operation : Arithmetic)
  | union
deriving DecidableEq, Repr

inductive NodeTest
  | wildcard
  | name (nsPrefix : Option String) (localPart : String) (uri : Option String)
  | namespaceWildcard (nsPrefix : String) (uri : Option String)
  | text
  | node
  | comment
  | instruction (target : Option String)
deriving DecidableEq, Repr

mutual

inductive Expr
  | literal (text : String)
  | number (value : Double)
  | path (start : PathStart) (steps : List Step)
  | filter (base : Expr) (predicates : List Expr)
  | call (function : String) (arguments : List Expr)
  | binary (operator : Operator) (left right : Expr)
  | negate (operand : Expr)

inductive PathStart
  | root
  | context
  | expr (start : Expr)

inductive Step
  | step (axis : Axis) (test : NodeTest) (predicates : List Expr)

end

namespace Expr

def isLocationPath : Expr → Bool
  | path .. => true
  | _ => false

def isBinary : Expr → Bool
  | binary .. => true
  | _ => false

end Expr

namespace Step

/-- The step between two slashes written together. -/
def descendantOrSelf : Step := .step .descendantOrSelf .node []

end Step

end XPathQuery
