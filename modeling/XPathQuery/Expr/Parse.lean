import XPathQuery.Error
import XPathQuery.Expr.Grammar
import XPathQuery.Text.Search

/-!
Expressions of texts. Spaces around the text do not count, and the whole rest of
it has to be one expression. A text that begins with none is reported from the
place where the name of its first step had to begin.
-/
namespace XPathQuery.Expr

open Token Grammar

/-- Where the first step of a text has to begin with a name: after blanks, minus
signs, two slashes and an axis, which are all read on the way. -/
def firstNamePlace (cs : List Char) : List Char :=
  let (_, rest) := many (fun cs => (spaced "-" cs).map fun rest => ((), rest)) cs
  let rest := skipBlanks rest
  let rest := (symbol "//" rest).getD rest
  match axis rest with
  | some (_, rest) => rest
  | none => rest

def parse (source : String) : Except XPathError Expr :=
  let cs := Text.trim source.toList
  match Grammar.expr cs with
  | some (e, []) => .ok e
  | some (_, rest) => .error (.parse source (.leftover (String.ofList rest)))
  | none => .error (.parse source (.noOperand (String.ofList (firstNamePlace cs))))

end XPathQuery.Expr
