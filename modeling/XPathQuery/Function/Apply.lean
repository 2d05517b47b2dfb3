import XPathQuery.Character.LowerCase
import XPathQuery.Function.Core
import XPathQuery.Number.Arithmetic
import XPathQuery.Text.Search

/-!
What the core functions compute. A call first checks that the function exists
and accepts the number of its arguments; after that every argument a function
takes is there.
-/
namespace XPathQuery

/-- What an expression is evaluated against: a node, the root of its document and
the place of the node among `size` others, counted from one. -/
structure Context where
  node : Address
  root : Address
  position : Nat
  size : Nat
deriving DecidableEq, Repr

/-- A node on its own. -/
def Context.ofNode (node : Address) : Context := ⟨node, [], 1, 1⟩

def xmlNamespace : String := "http://www.w3.org/XML/1998/namespace"

namespace Tree

/-- The language an element declares for itself. -/
def languageAt? (tree : Tree) (element : Address) : Option String :=
  (tree.attributesOf element).findSome? fun address =>
    match tree.label? address with
    | some label =>
        if label.uri == some xmlNamespace && label.name.any (·.localPart == "lang") then
          some (tree.stringValueOf address)
        else none
    | none => none

/-- The nearest declared language; only elements declare one. -/
def languageOf? (tree : Tree) (node : Address) : Option String :=
  let places :=
    if tree.kind? node = some .element then node :: node.ancestors else node.ancestors
  places.findSome? tree.languageAt?

end Tree

/-- Whether a declared language is the wanted one or a kind of it, case ignored. -/
def languageMatches (wanted declared : String) : Bool :=
  let wanted := Character.lowerCase wanted.toList
  let declared := Character.lowerCase declared.toList
  declared == wanted || (wanted ++ ['-']).isPrefixOf declared

/-- The characters whose places, counted from `index`, lie between two bounds. -/
def substringFrom (first last : Double) (index : Nat) : List Char → List Char
  | [] => []
  | c :: cs =>
      let rest := substringFrom first last (index + 1) cs
      if first.lessOrEqual (.ofNat index) && (Double.ofNat index).less last then c :: rest
      else rest

namespace CoreFunction

def argument (f : CoreFunction) (arguments : List Value) (index : Nat) :
    Except XPathError Value :=
  match arguments[index]? with
  | some value => .ok value
  | none => .error (.missingArgument f.spelling index)

def nodeSet (f : CoreFunction) : Value → Except XPathError (List Address)
  | .nodes addresses => .ok addresses
  | .scalar found => .error (.type (.argument f.spelling found))

/-- The first node of the argument, or the context node when there is none. -/
def chosenNode (f : CoreFunction) (context : Context) (arguments : List Value) :
    Except XPathError (Option Address) :=
  match arguments with
  | [] => .ok (some context.node)
  | value :: _ => (f.nodeSet value).map List.head?

/-- The argument, or the set of the context node when there is none. -/
def chosenValue (context : Context) (arguments : List Value) : Value :=
  arguments.head?.getD (.nodes [context.node])

def nameOf (tree : Tree) (node : Option Address) : Option QName :=
  (node.bind tree.label?).bind Label.name

def apply (tree : Tree) (context : Context) (f : CoreFunction) (arguments : List Value) :
    Except XPathError Value :=
  let text (index : Nat) : Except XPathError (List Char) :=
    (f.argument arguments index).map fun value => (value.toText tree).toList
  let numeric (index : Nat) : Except XPathError Double :=
    (f.argument arguments index).map (Value.toNumber tree)
  let truthOf (index : Nat) : Except XPathError Bool :=
    (f.argument arguments index).map Value.toBool
  let chosen : List Char := ((chosenValue context arguments).toText tree).toList
  match f with
  | .last => .ok (.number (.ofNat context.size))
  | .position => .ok (.number (.ofNat context.position))
  | .count => do
      let nodes ← f.nodeSet (← f.argument arguments 0)
      return .number (.ofNat nodes.length)
  | .localName => do
      let node ← f.chosenNode context arguments
      return .string (((nameOf tree node).map QName.localPart).getD "")
  | .namespaceUri => do
      let node ← f.chosenNode context arguments
      return .string (((node.bind tree.label?).bind Label.uri).getD "")
  | .name => do
      let node ← f.chosenNode context arguments
      return .string (((nameOf tree node).map QName.text).getD "")
  | .string => .ok (.string (String.ofList chosen))
  | .concat => .ok (.string (String.join (arguments.map (Value.toText tree))))
  | .startsWith => do
      let whole ← text 0
      let start ← text 1
      return .boolean (start.isPrefixOf whole)
  | .contains => do
      let whole ← text 0
      let part ← text 1
      return .boolean (Text.contains part whole)
  | .substringBefore => do
      let whole ← text 0
      let part ← text 1
      return .string (String.ofList (((Text.splitAt? part whole).map Prod.fst).getD []))
  | .substringAfter => do
      let whole ← text 0
      let part ← text 1
      return .string (String.ofList (((Text.splitAt? part whole).map Prod.snd).getD []))
  | .substring => do
      let whole ← text 0
      let first := (← numeric 1).round
      let last ←
        if arguments.length = 3 then do
          let length ← numeric 2
          pure (first.add length.round)
        else pure (Double.infinite false)
      return .string (String.ofList (substringFrom first last 1 whole))
  | .stringLength => .ok (.number (.ofNat chosen.length))
  | .normalizeSpace => .ok (.string (String.ofList (Text.normalizeSpace chosen)))
  | .translate => do
      let whole ← text 0
      let source ← text 1
      let target ← text 2
      return .string (String.ofList (Text.translate source target whole))
  | .boolean => do return .boolean (← truthOf 0)
  | .negation => do return .boolean !(← truthOf 0)
  | .truth => .ok (.boolean true)
  | .falsehood => .ok (.boolean false)
  | .lang => do
      let wanted ← text 0
      return .boolean ((tree.languageOf? context.node).any (languageMatches (String.ofList wanted)))
  | .number => .ok (.number ((chosenValue context arguments).toNumber tree))
  | .sum => do
      let nodes ← f.nodeSet (← f.argument arguments 0)
      return .number
        (Double.sum (nodes.map fun node => Text.toNumber (tree.stringValueOf node).toList))
  | .floor => do return .number (← numeric 0).floor
  | .ceiling => do return .number (← numeric 0).ceiling
  | .round => do return .number (← numeric 0).round

end CoreFunction

/-- Calls a function by name. -/
def callFunction (tree : Tree) (context : Context) (function : String) (arguments : List Value) :
    Except XPathError Value :=
  match Registry.core.validate function arguments.length with
  | .error e => .error e
  | .ok () =>
      match CoreFunction.ofName? function with
      | none => .error (.unknownFunction function)
      | some f => f.apply tree context arguments

end XPathQuery
