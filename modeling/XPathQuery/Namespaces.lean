import XPathQuery.Expr.Bind
import XPathQuery.Markup.Scope
import XPathQuery.Tree.Address

/-!
The namespaces in scope at a node. The fixed prefixes xml and xmlns come first,
then the prefixes declared around the node from the nearest element outwards,
then those that only a caller binds. A caller's binding replaces a declared one
in its place, and the fixed ones never change.
-/
namespace XPathQuery

structure Namespaces where
  bindings : List (String × String)
  defaultUri : String
deriving DecidableEq, Repr

/-- Bindings of a caller, in any order. Of several for one prefix the last counts. -/
abbrev Overrides := List (String × String)

namespace Overrides

/-- Puts a binding into its place in a list that ascends by prefix. -/
def put (entry : String × String) : Overrides → Overrides
  | [] => [entry]
  | first :: rest =>
      if entry.1 < first.1 then entry :: first :: rest
      else if entry.1 = first.1 then entry :: rest
      else first :: put entry rest

/-- One binding for each prefix, in ascending order. -/
def sorted (overrides : Overrides) : Overrides :=
  overrides.foldl (fun entries entry => put entry entries) []

end Overrides

namespace Tree

def declarationsOf (tree : Tree) (node : Address) : List Declaration :=
  ((tree.label? node).map Label.declarations).getD []

/-- A node and the nodes above it, the root left out. -/
def belowRoot : Address → List Address
  | [] => []
  | branch :: parent => (branch :: parent) :: belowRoot parent

/-- Where the search for declarations begins: the root stands for its first child
element. -/
def scopeStart (tree : Tree) (node : Address) : Address :=
  if node.isEmpty then (tree.childElement? node).getD [] else node

/-- The declarations around a node, nearest element first. -/
def declarationsAround (tree : Tree) (node : Address) : List Declaration :=
  (belowRoot (tree.scopeStart node)).flatMap tree.declarationsOf

end Tree

namespace Namespaces

def fixedBindings : List (String × String) :=
  [("xml", xmlNamespace), ("xmlns", Markup.xmlnsNamespace)]

def isFixed (nsPrefix : String) : Bool := nsPrefix == "xml" || nsPrefix == "xmlns"

/-- Adds a declaration after the others unless its prefix is bound already. -/
def declare (bindings : List (String × String)) (declaration : Declaration) :
    List (String × String) :=
  match declaration.nsPrefix with
  | none => bindings
  | some nsPrefix =>
      if isFixed nsPrefix || bindings.any (·.1 == nsPrefix) then bindings
      else bindings ++ [(nsPrefix, declaration.uri)]

/-- The namespaces declared around a node. -/
def atNode (tree : Tree) (node : Address) : Namespaces where
  bindings := (tree.declarationsAround node).foldl declare fixedBindings
  defaultUri :=
    (((tree.declarationsAround node).find? (·.nsPrefix == none)).map Declaration.uri).getD ""

/-- Binds a prefix, in its place if it is bound already. -/
def assign (bindings : List (String × String)) (nsPrefix uri : String) : List (String × String) :=
  if bindings.any (·.1 == nsPrefix) then
    bindings.map fun entry => if entry.1 == nsPrefix then (nsPrefix, uri) else entry
  else bindings ++ [(nsPrefix, uri)]

/-- The empty prefix stands for the default namespace. -/
def override (namespaces : Namespaces) (entry : String × String) : Namespaces :=
  if entry.1 = "" then { namespaces with defaultUri := entry.2 }
  else if isFixed entry.1 then namespaces
  else { namespaces with bindings := assign namespaces.bindings entry.1 entry.2 }

/-- The namespaces around a node, with the bindings of a caller. -/
def withOverrides (tree : Tree) (node : Address) (overrides : Overrides) : Namespaces :=
  overrides.sorted.foldl override (atNode tree node)

/-- The namespace of a prefix, empty when it has none. -/
def uriOf (namespaces : Namespaces) (nsPrefix : String) : String :=
  if nsPrefix = "" then namespaces.defaultUri
  else (namespaces.bindings.lookup nsPrefix).getD ""

/-- The first prefix of a namespace; the default one has the empty prefix. -/
def prefixOf? (namespaces : Namespaces) (uri : String) : Option String :=
  if uri = namespaces.defaultUri then some ""
  else (namespaces.bindings.find? (·.2 == uri)).map Prod.fst

/-- The prefixes of a namespace, of which only the first is reported. -/
def prefixesOf (namespaces : Namespaces) (uri : String) : List String :=
  (namespaces.prefixOf? uri).toList

def resolver (namespaces : Namespaces) : Resolver := fun nsPrefix =>
  let uri := namespaces.uriOf nsPrefix
  if uri = "" then none else some uri

end Namespaces

end XPathQuery
