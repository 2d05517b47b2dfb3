import XPathQuery.Error

/-!
The core functions, the names a call is dispatched on, and registries of functions. A
registry keeps one arity for each name, the last one registered. The core registry is a
table of its own, written apart from the dispatch on names.
-/
namespace XPathQuery

inductive CoreFunction
  | last
  | position
  | count
  | localName
  | namespaceUri
  | name
  | string
  | concat
  | startsWith
  | contains
  | substringBefore
  | substringAfter
  | substring
  | stringLength
  | normalizeSpace
  | translate
  | boolean
  | negation
  | truth
  | falsehood
  | lang
  | number
  | sum
  | floor
  | ceiling
  | round
deriving DecidableEq, Repr

namespace CoreFunction

def spelling : CoreFunction → String
  | last => "last"
  | position => "position"
  | count => "count"
  | localName => "local-name"
  | namespaceUri => "namespace-uri"
  | name => "name"
  | string => "string"
  | concat => "concat"
  | startsWith => "starts-with"
  | contains => "contains"
  | substringBefore => "substring-before"
  | substringAfter => "substring-after"
  | substring => "substring"
  | stringLength => "string-length"
  | normalizeSpace => "normalize-space"
  | translate => "translate"
  | boolean => "boolean"
  | negation => "not"
  | truth => "true"
  | falsehood => "false"
  | lang => "lang"
  | number => "number"
  | sum => "sum"
  | floor => "floor"
  | ceiling => "ceiling"
  | round => "round"

/-- The function that a call of this name is dispatched to. -/
def ofName? : String → Option CoreFunction
  | "last" => some .last
  | "position" => some .position
  | "count" => some .count
  | "local-name" => some .localName
  | "namespace-uri" => some .namespaceUri
  | "name" => some .name
  | "string" => some .string
  | "concat" => some .concat
  | "starts-with" => some .startsWith
  | "contains" => some .contains
  | "substring-before" => some .substringBefore
  | "substring-after" => some .substringAfter
  | "substring" => some .substring
  | "string-length" => some .stringLength
  | "normalize-space" => some .normalizeSpace
  | "translate" => some .translate
  | "boolean" => some .boolean
  | "not" => some .negation
  | "true" => some .truth
  | "false" => some .falsehood
  | "lang" => some .lang
  | "number" => some .number
  | "sum" => some .sum
  | "floor" => some .floor
  | "ceiling" => some .ceiling
  | "round" => some .round
  | _ => none

end CoreFunction

/-- The functions an expression may call, each with its arity. -/
abbrev Registry := List (String × Arity)

namespace Registry

def empty : Registry := []

def get? (registry : Registry) (name : String) : Option Arity :=
  (registry.find? fun entry => entry.1 == name).map Prod.snd

def register (registry : Registry) (name : String) (arity : Arity) : Registry :=
  (name, arity) :: registry.filter fun entry => entry.1 != name

/-- Succeeds when the function exists and accepts that many arguments. -/
def validate (registry : Registry) (name : String) (count : Nat) : Except XPathError Unit :=
  match registry.get? name with
  | none => .error (.unknownFunction name)
  | some arity => if arity.accepts count then .ok () else .error (.wrongArity name arity)

def core : Registry :=
  [("last", ⟨0, some 0⟩),
    ("position", ⟨0, some 0⟩),
    ("count", ⟨1, some 1⟩),
    ("local-name", ⟨0, some 1⟩),
    ("namespace-uri", ⟨0, some 1⟩),
    ("name", ⟨0, some 1⟩),
    ("string", ⟨0, some 1⟩),
    ("concat", ⟨2, none⟩),
    ("starts-with", ⟨2, some 2⟩),
    ("contains", ⟨2, some 2⟩),
    ("substring-before", ⟨2, some 2⟩),
    ("substring-after", ⟨2, some 2⟩),
    ("substring", ⟨2, some 3⟩),
    ("string-length", ⟨0, some 1⟩),
    ("normalize-space", ⟨0, some 1⟩),
    ("translate", ⟨3, some 3⟩),
    ("boolean", ⟨1, some 1⟩),
    ("not", ⟨1, some 1⟩),
    ("true", ⟨0, some 0⟩),
    ("false", ⟨0, some 0⟩),
    ("lang", ⟨1, some 1⟩),
    ("number", ⟨0, some 1⟩),
    ("sum", ⟨1, some 1⟩),
    ("floor", ⟨1, some 1⟩),
    ("ceiling", ⟨1, some 1⟩),
    ("round", ⟨1, some 1⟩)]

theorem get?_register_self (registry : Registry) (name : String) (arity : Arity) :
    (registry.register name arity).get? name = some arity := by
  simp [register, get?]

end Registry

end XPathQuery
