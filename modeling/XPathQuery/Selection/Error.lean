import XPathQuery.Error

/-!
What can go wrong with a selection besides the expression itself, by cause, and
the text of each error.
-/
namespace XPathQuery

/-- What a namespace is asked for by. -/
inductive NamespaceKey
  | nsPrefix
  | uri
deriving DecidableEq, Repr

inductive Direction
  | next
  | previous
deriving DecidableEq, Repr

inductive SelectError
  | nullKey (key : NamespaceKey)
  | detached (direction : Direction)
  | missingArgument (expression : String) (position supplied : Nat)
  | evaluation (error : XPathError)
deriving DecidableEq, Repr

def NamespaceKey.text : NamespaceKey → String
  | nsPrefix => "prefix"
  | uri => "namespace URI"

def Direction.text : Direction → String
  | next => "next"
  | previous => "previous"

def SelectError.text : SelectError → String
  | nullKey key => s!"Invalid argument: {key.text} must not be null"
  | detached direction => s!"called {direction.text}Node() after detach()"
  | missingArgument expression position supplied =>
      s!"Placeholder {position} in '{expression}' has no matching argument ({supplied} supplied)"
  | evaluation error => s!"XPath evaluation failed: {error.text}"

end XPathQuery
