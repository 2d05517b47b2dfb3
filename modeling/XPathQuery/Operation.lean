import XPathQuery.Error
import XPathQuery.Expr.Basic
import XPathQuery.Number.Arithmetic

/-!
Operators on values. A comparison with a node-set asks whether it holds for the
string value of some node, except that a boolean on the other side turns the
node-set into one. Two scalars are equal as booleans if one of them is a
boolean, else as numbers if one is a number, else as strings; the other
relations always compare numbers.
-/
namespace XPathQuery

namespace Scalar

def equals : Scalar → Scalar → Bool
  | string a, string b => a == b
  | boolean a, other => a == other.toBool
  | other, boolean b => other.toBool == b
  | a, b => a.toNumber.equal b.toNumber

def compare (relation : Comparison) (left right : Scalar) : Bool :=
  match relation with
  | .equal => left.equals right
  | .notEqual => !left.equals right
  | .less => left.toNumber.less right.toNumber
  | .lessOrEqual => left.toNumber.lessOrEqual right.toNumber
  | .greater => right.toNumber.less left.toNumber
  | .greaterOrEqual => right.toNumber.lessOrEqual left.toNumber

end Scalar

namespace Value

def compare (tree : Tree) (relation : Comparison) (left right : Value) : Bool :=
  match left, right with
  | nodes l, nodes r =>
      let texts := r.map tree.stringValueOf
      l.any fun a => texts.any fun b =>
        Scalar.compare relation (.string (tree.stringValueOf a)) (.string b)
  | nodes l, scalar (.boolean b) => Scalar.compare relation (.boolean !l.isEmpty) (.boolean b)
  | scalar (.boolean b), nodes r => Scalar.compare relation (.boolean b) (.boolean !r.isEmpty)
  | nodes l, scalar s =>
      l.any fun a => Scalar.compare relation (.string (tree.stringValueOf a)) s
  | scalar s, nodes r =>
      r.any fun b => Scalar.compare relation s (.string (tree.stringValueOf b))
  | scalar a, scalar b => Scalar.compare relation a b

def union : Value → Value → Except XPathError Value
  | nodes l, nodes r => .ok (nodes (NodeSet.ofList (l ++ r)))
  | left, right => .error (.type (.union left.type right.type))

end Value

def Arithmetic.apply : Arithmetic → Double → Double → Double
  | add => Double.add
  | subtract => Double.sub
  | multiply => Double.mul
  | divide => Double.div
  | remainder => Double.rem

namespace Operator

/-- Whether an operator is a comparison that holds between two values. -/
def holds (tree : Tree) (operator : Operator) (left right : Value) : Bool :=
  match operator with
  | comparison relation => left.compare tree relation right
  | _ => false

def apply (tree : Tree) (operator : Operator) (left right : Value) : Except XPathError Value :=
  match operator with
  | or => .ok (.boolean (left.toBool || right.toBool))
  | and => .ok (.boolean (left.toBool && right.toBool))
  | comparison relation => .ok (.boolean (left.compare tree relation right))
  | arithmetic operation =>
      .ok (.number (operation.apply (left.toNumber tree) (right.toNumber tree)))
  | union => left.union right

end Operator

end XPathQuery
