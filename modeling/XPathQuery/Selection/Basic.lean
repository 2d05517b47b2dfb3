import XPathQuery.Compiled
import XPathQuery.Namespaces
import XPathQuery.Selection.Cursor
import XPathQuery.Selection.Template

/-!
Selections. The namespaces come from a node, which may belong to another
document, with the bindings of the caller; the template is filled in, compiled
and evaluated at a node; and the matches are given as nodes or as texts.
-/
namespace XPathQuery

/-- Where the namespaces of an expression come from. -/
structure NamespaceSource where
  tree : Tree
  node : Address
  overrides : Overrides := []

namespace NamespaceSource

def namespaces (source : NamespaceSource) : Namespaces :=
  .withOverrides source.tree source.node source.overrides

end NamespaceSource

/-- A template with its arguments, to be evaluated at a node of a tree. -/
structure Selection where
  config : SelectConfig := {}
  tree : Tree
  node : Address
  source : NamespaceSource
  template : String
  arguments : List String := []

namespace Selection

/-- Every match in document order. -/
def nodes (selection : Selection) : Except SelectError (List Address) := do
  let expression ← Template.substitute selection.config selection.template selection.arguments
  let found := do
    let compiled ← Compiled.ofSource selection.source.namespaces.resolver expression
    compiled.evaluateNodes selection.tree selection.node
  found.mapError .evaluation

def first? (selection : Selection) : Except SelectError (Option Address) :=
  selection.nodes.map List.head?

def firstText? (selection : Selection) : Except SelectError (Option String) :=
  selection.first?.map (Option.map selection.tree.stringValueOf)

def texts (selection : Selection) : Except SelectError (List String) :=
  selection.nodes.map (List.map selection.tree.stringValueOf)

def cursor (selection : Selection) : Except SelectError (Cursor Address) :=
  selection.nodes.map Cursor.ofList

end Selection

end XPathQuery
