import XPathQuery.Function.Apply
import XPathQuery.Markup.Basic

/-!
Namespaces of markup. The declarations written on an element come first in its
scope, in the order written, followed by those of its parent that they do not
replace; the scope around a document is empty. The prefix xml is in no scope: an
attribute may have it all the same, but an element may not. A name is reported
with the prefix of the first entry of its namespace, which need not be the
prefix it is written with.
-/
namespace XPathQuery.Markup

/-- The declarations in scope, in the order in which they are searched. -/
abbrev Scope := List Declaration

def xmlnsNamespace : String := "http://www.w3.org/2000/xmlns/"

def WrittenAttribute.isDeclaration (a : WrittenAttribute) : Bool :=
  a.name.nsPrefix == "xmlns" || a.name.localPart == "xmlns"

/-- Whether a declaration may be written: the prefix xml and its namespace belong
together, and the namespace of declarations themselves cannot be declared. -/
def WrittenAttribute.mayDeclare (a : WrittenAttribute) : Bool :=
  a.value != xmlnsNamespace &&
    if a.name.nsPrefix == "xmlns" then (a.name.localPart == "xml") == (a.value == xmlNamespace)
    else a.value != xmlNamespace

/-- The declaration an attribute stands for. The one of xml adds nothing. -/
def WrittenAttribute.declaration? (a : WrittenAttribute) : Option Declaration :=
  if a.name.nsPrefix == "xmlns" then
    if a.name.localPart == "xml" then none else some ⟨some a.name.localPart, a.value⟩
  else if a.name.localPart == "xmlns" then some ⟨none, a.value⟩
  else none

namespace Scope

def declares (scope : Scope) (nsPrefix : Option String) : Bool :=
  scope.any (·.nsPrefix == nsPrefix)

/-- The declarations of an element in order, unless one of them is not allowed or
declares a prefix again. -/
def ofAttributes? : Scope → List WrittenAttribute → Option Scope
  | own, [] => some own
  | own, a :: rest =>
      if a.isDeclaration then
        if a.mayDeclare && !(a.name.nsPrefix == "xmlns" && own.declares a.name.localPart) then
          ofAttributes? (own ++ a.declaration?.toList) rest
        else none
      else ofAttributes? own rest

/-- Adds a declaration after the others unless its prefix is declared already. -/
def extend (scope : Scope) (d : Declaration) : Scope :=
  if scope.declares d.nsPrefix then scope else scope ++ [d]

/-- The scope of an element inside another scope. An element that declares nothing
shares the scope around it as it is. -/
def inside (own outer : Scope) : Scope :=
  if own.isEmpty then outer else outer.foldl extend own

/-- The namespace of a prefix, or of names without one. -/
def uri? (scope : Scope) (nsPrefix : Option String) : Option String :=
  (scope.find? (·.nsPrefix == nsPrefix)).map Declaration.uri

/-- The prefix that names of a namespace are reported with. -/
def prefixFor? (scope : Scope) (uri : String) : Option String :=
  if uri = xmlNamespace then some "xml"
  else (scope.find? (·.uri == uri)).bind Declaration.nsPrefix

end Scope

/-- A name with its namespace, which may be missing or empty. -/
structure ExpandedName where
  uri : Option String
  localPart : String
deriving DecidableEq, Repr

/-- An element name takes the default namespace when it has no prefix. A prefix
that is not declared is an error, and so is xml, since declaring it adds nothing. -/
def elementName? (scope : Scope) (name : WrittenName) : Option ExpandedName :=
  if name.nsPrefix = "" then some ⟨scope.uri? none, name.localPart⟩
  else (scope.uri? (some name.nsPrefix)).map fun uri => ⟨some uri, name.localPart⟩

/-- An attribute name without a prefix has no namespace; the prefix xml needs no
declaration. -/
def attributeName? (scope : Scope) (name : WrittenName) : Option ExpandedName :=
  if name.nsPrefix = "" then some ⟨none, name.localPart⟩
  else if name.nsPrefix = "xml" then some ⟨some xmlNamespace, name.localPart⟩
  else (scope.uri? (some name.nsPrefix)).map fun uri => ⟨some uri, name.localPart⟩

end XPathQuery.Markup
