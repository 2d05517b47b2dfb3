import XPathQuery.Evaluation
import XPathQuery.Expr.Bind
import XPathQuery.Expr.Parse

/-!
Compiled expressions: parsed, bound and ready to be evaluated at any node. The
source text is kept for messages.
-/
namespace XPathQuery

structure Compiled where
  source : String
  expr : Expr

namespace Compiled

def ofSource (resolver : Resolver) (source : String) : Except XPathError Compiled := do
  let e ← Expr.parse source
  let e ← e.bind resolver Registry.core
  return ⟨source, e⟩

/-- The value at a node on its own. -/
def evaluate (compiled : Compiled) (tree : Tree) (node : Address) : Except XPathError Value :=
  XPathQuery.evaluate tree compiled.expr (.ofNode node)

/-- The nodes that a value has to consist of. -/
def requireNodes (compiled : Compiled) : Value → Except XPathError (List Address)
  | .nodes addresses => .ok addresses
  | .scalar s => .error (.type (.result compiled.source s.type))

def evaluateNodes (compiled : Compiled) (tree : Tree) (node : Address) :
    Except XPathError (List Address) := do
  compiled.requireNodes (← compiled.evaluate tree node)

end Compiled

end XPathQuery
