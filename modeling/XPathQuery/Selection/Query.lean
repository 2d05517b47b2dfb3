import XPathQuery.Namespaces
import XPathQuery.Selection.Error

/-!
Questions about the namespaces of a scope in which the argument may be missing.
-/
namespace XPathQuery.Namespaces

def requireKey (key : NamespaceKey) : Option String → Except SelectError String
  | some argument => .ok argument
  | none => .error (.nullKey key)

def uriQuery (namespaces : Namespaces) (nsPrefix : Option String) : Except SelectError String :=
  (requireKey .nsPrefix nsPrefix).map namespaces.uriOf

def prefixQuery (namespaces : Namespaces) (uri : Option String) :
    Except SelectError (Option String) :=
  (requireKey .uri uri).map namespaces.prefixOf?

def prefixesQuery (namespaces : Namespaces) (uri : Option String) :
    Except SelectError (List String) :=
  (requireKey .uri uri).map namespaces.prefixesOf

end XPathQuery.Namespaces
