import XPathQuery.Text.Quoted
import XPathQuery.Value

/-!
What can go wrong with an expression, by cause, and the text of each error. An
expression is not in the grammar, uses a prefix or a function that does not
exist or a function with the wrong number of arguments, or meets a value that
is no node-set where it needs one.
-/
namespace XPathQuery

/-- Why a text is no expression: what follows a complete expression, or what
stands in the place of its first operand. -/
inductive ParseFailure
  | leftover (rest : String)
  | noOperand (rest : String)
deriving DecidableEq, Repr

/-- The number of arguments a function accepts, at most `most` if there is a limit. -/
structure Arity where
  least : Nat
  most : Option Nat
deriving DecidableEq, Repr

inductive NodeSetPlace
  | filterBase
  | pathStart
deriving DecidableEq, Repr

inductive TypeFault
  | operand (place : NodeSetPlace) (found : ValueType)
  | union (left right : ValueType)
  | argument (function : String) (found : Scalar)
  | result (source : String) (found : ValueType)
deriving DecidableEq, Repr

inductive XPathError
  | parse (source : String) (failure : ParseFailure)
  | unboundPrefix (nsPrefix : String)
  | unknownFunction (function : String)
  | wrongArity (function : String) (arity : Arity)
  | missingArgument (function : String) (index : Nat)
  | type (fault : TypeFault)
deriving DecidableEq, Repr

/-- The message for a name that does not begin where one has to. -/
def noNameText (rest : String) : String :=
  "Parsing Error: Error \x7b input: " ++ String.ofList (Text.quoted rest.toList) ++
    ", code: TakeWhile1 \x7d"

def ParseFailure.text : ParseFailure → String
  | leftover rest => s!"Parser did not consume all input. Remainder: '{rest}'"
  | noOperand rest => noNameText rest

namespace Arity

def accepts (arity : Arity) (count : Nat) : Bool :=
  arity.least ≤ count &&
    match arity.most with
    | some most => count ≤ most
    | none => true

def text (arity : Arity) : String :=
  match arity.most with
  | some most =>
      if most = arity.least then s!"Expected {most} argument(s)"
      else s!"Expected {arity.least} to {most} arguments"
  | none => s!"Expected at least {arity.least} arguments"

end Arity

def NodeSetPlace.text : NodeSetPlace → String
  | filterBase => "filter expression"
  | pathStart => "path start"

def TypeFault.text : TypeFault → String
  | operand place found => s!"{place.text} must be a node-set, got a {found.name}"
  | union left right =>
      s!"The '|' operator requires node-sets, got {left.name} and {right.name}"
  | argument function found =>
      s!"{function}() argument must be a node-set, got the " ++
        match found with
        | .string text => s!"string '{text}'"
        | .number value => s!"number {Scalar.numberText value}"
        | .boolean truth => s!"boolean {Scalar.booleanText truth}"
  | result source found => s!"Expression '{source}' evaluated to a {found.name}, not a node-set"

def XPathError.text : XPathError → String
  | parse source failure => s!"XPath parse error in '{source}': {failure.text}"
  | unboundPrefix nsPrefix => s!"Namespace prefix '{nsPrefix}' is not bound"
  | unknownFunction function => s!"Unknown XPath function '{function}'"
  | wrongArity function arity => s!"Function '{function}()' error: {arity.text}"
  | missingArgument function index => s!"Function '{function}()' error: No argument {index}"
  | type fault => s!"Type error: {fault.text}"

end XPathQuery
