import XPathQuery.Text.Numeral
import XPathQuery.Tree.Order

/-!
Values of expressions and their conversions. A node-set stands for the string
value of its first node wherever a text or a number is wanted, and is true when
it is not empty.
-/
namespace XPathQuery

inductive ValueType
  | nodeSet
  | string
  | number
  | boolean
deriving DecidableEq, Repr

def ValueType.name : ValueType → String
  | nodeSet => "node-set"
  | string => "string"
  | number => "number"
  | boolean => "boolean"

inductive Scalar
  | string (text : String)
  | number (value : Double)
  | boolean (truth : Bool)
deriving DecidableEq, Repr

inductive Value
  | nodes (addresses : List Address)
  | scalar (scalar : Scalar)
deriving DecidableEq, Repr

namespace Scalar

def type : Scalar → ValueType
  | string _ => .string
  | number _ => .number
  | boolean _ => .boolean

def booleanText (truth : Bool) : String := if truth then "true" else "false"

def numberText (value : Double) : String := String.ofList value.text

def toText : Scalar → String
  | string text => text
  | number value => numberText value
  | boolean truth => booleanText truth

def toNumber : Scalar → Double
  | string text => Text.toNumber text.toList
  | number value => value
  | boolean truth => if truth then Double.ofNat 1 else Double.zero

def toBool : Scalar → Bool
  | string text => text != ""
  | number value => !value.isZero && !value.isNaN
  | boolean truth => truth

end Scalar

namespace Value

def string (text : String) : Value := scalar (.string text)

def number (value : Double) : Value := scalar (.number value)

def boolean (truth : Bool) : Value := scalar (.boolean truth)

def type : Value → ValueType
  | nodes _ => .nodeSet
  | scalar s => s.type

def toText (tree : Tree) : Value → String
  | nodes [] => ""
  | nodes (first :: _) => tree.stringValueOf first
  | scalar s => s.toText

def toNumber (tree : Tree) : Value → Double
  | nodes [] => .nan
  | nodes (first :: _) => Text.toNumber (tree.stringValueOf first).toList
  | scalar s => s.toNumber

def toBool : Value → Bool
  | nodes addresses => !addresses.isEmpty
  | scalar s => s.toBool

end Value

end XPathQuery
