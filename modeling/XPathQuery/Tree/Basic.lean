/-!
Document trees. A tree is one node with its attributes and its children, both
in document order. Nothing forces a tree to be sensible: any kind of node may
carry attributes and children, and a name may have no namespace. The string
value of a root or an element joins those of its text and element children.
-/
namespace XPathQuery

inductive NodeKind
  | root
  | element
  | attribute
  | text
  | comment
  | instruction
deriving DecidableEq, Repr

/-- A name with the namespace prefix written before its colon, if there is one. -/
structure QName where
  nsPrefix : Option String
  localPart : String
deriving DecidableEq, Repr

namespace QName

def text (name : QName) : String :=
  match name.nsPrefix with
  | some nsPrefix => nsPrefix ++ ":" ++ name.localPart
  | none => name.localPart

end QName

/-- A namespace declaration; the default one has no prefix. -/
structure Declaration where
  nsPrefix : Option String
  uri : String
deriving DecidableEq, Repr

/-- The attribute name that a declaration is written as. -/
def Declaration.attributeName (declaration : Declaration) : String :=
  match declaration.nsPrefix with
  | some nsPrefix => "xmlns:" ++ nsPrefix
  | none => "xmlns"

/-- What a node has on its own: the content of a text, comment, instruction or
attribute is its `value`, the target of an instruction is its name. -/
structure Label where
  kind : NodeKind
  name : Option QName
  uri : Option String
  value : String
  declarations : List Declaration
deriving DecidableEq, Repr

inductive Tree
  | node (label : Label) (attributes : List Tree) (children : List Tree)

namespace Tree

def label : Tree → Label
  | node label _ _ => label

def attributes : Tree → List Tree
  | node _ attributes _ => attributes

def children : Tree → List Tree
  | node _ _ children => children

mutual

def stringValue : Tree → String
  | node label _ children =>
      match label.kind with
      | .root | .element => contentValue children
      | _ => label.value

/-- The string values of the texts and elements among some siblings, joined. -/
def contentValue : List Tree → String
  | [] => ""
  | tree :: rest =>
      match tree.label.kind with
      | .text | .element => stringValue tree ++ contentValue rest
      | _ => contentValue rest

end

mutual

/-- The content of every text node below, in document order. -/
def innerText : Tree → String
  | node _ _ children => innerTexts children

def innerTexts : List Tree → String
  | [] => ""
  | tree :: rest =>
      (if tree.label.kind = .text then tree.label.value else "") ++ innerText tree ++
        innerTexts rest

end

/-- The text held by a node: all text below a root or an element, nothing for an
instruction, and the content of any other node. -/
def textContent (tree : Tree) : String :=
  match tree.label.kind with
  | .root | .element => innerText tree
  | .instruction => ""
  | _ => tree.label.value

end Tree

end XPathQuery
