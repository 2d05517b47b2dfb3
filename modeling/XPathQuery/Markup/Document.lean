import XPathQuery.Markup.Content
import XPathQuery.Markup.Scope

/-!
The tree of a document. Declarations are no attributes. An element reports as
its own the entries of its scope that its parent does not share, so a repeated
declaration of the same namespace does not show. Two attributes of an element
must differ in their names with namespaces.
-/
namespace XPathQuery.Markup

/-- A namespace that is there, the empty one being none. -/
def shownUri (uri : Option String) : Option String := uri.filter (· != "")

def elementLabel (outer scope : Scope) (name : ExpandedName) : Label where
  kind := .element
  name := some ⟨(shownUri name.uri).bind scope.prefixFor?, name.localPart⟩
  uri := shownUri name.uri
  value := ""
  declarations := scope.filter fun d => !outer.contains d

def attributeLabel (scope : Scope) (name : ExpandedName) (value : String) : Label where
  kind := .attribute
  name := some ⟨name.uri.bind scope.prefixFor?, name.localPart⟩
  uri := shownUri name.uri
  value := value
  declarations := []

def leaf (kind : NodeKind) (name : Option QName) (value : String) : Tree :=
  .node ⟨kind, name, none, value, []⟩ [] []

/-- The names of the attributes that are no declarations, with their values. -/
def attributeNames? (scope : Scope) : List WrittenAttribute → Option (List (ExpandedName × String))
  | [] => some []
  | a :: rest =>
      if a.isDeclaration then attributeNames? scope rest
      else do
        let name ← attributeName? scope a.name
        let names ← attributeNames? scope rest
        if names.any (·.1 == name) then none else some ((name, a.value) :: names)

mutual

/-- The tree of an item in the scope around it. -/
def Item.tree? (outer : Scope) : Item → Option Tree
  | .text content => some (leaf .text none content)
  | .comment content => some (leaf .comment none content)
  | .instruction target content => some (leaf .instruction (some ⟨none, target⟩) content)
  | .element name attributes content => do
      let own ← Scope.ofAttributes? [] attributes
      let scope := own.inside outer
      let expanded ← elementName? scope name
      let names ← attributeNames? scope attributes
      let children ← trees? scope content
      return .node (elementLabel outer scope expanded)
        (names.map fun (name, value) => .node (attributeLabel scope name value) [] []) children

def trees? (outer : Scope) : List Item → Option (List Tree)
  | [] => some []
  | item :: rest => do
      let tree ← item.tree? outer
      let trees ← trees? outer rest
      return tree :: trees

end

/-- The tree of a document, none when its text is not well-formed. -/
def read (source : String) : Option Tree := do
  let items ← document source.toList
  let children ← trees? [] items
  return .node ⟨.root, none, none, "", []⟩ [] children

end XPathQuery.Markup
