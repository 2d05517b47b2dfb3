import XPathQuery.Function.Apply
import XPathQuery.Operation

/-!
Evaluation of expressions. A path takes its steps one after the other: from each
node it walks along the axis, keeps what passes the test, narrows that by the
predicates in axis order, and merges the results of all nodes into a node-set.
A predicate that is a number selects the node at that place. The operators or
and and leave their right operand alone when the left one decides.
-/
namespace XPathQuery

/-- Whether a node on an axis passes a test. Name tests only see the kind of node
an axis is made for; no namespace and an empty one are the same. -/
def NodeTest.passes (test : NodeTest) (axis : Axis) (label : Label) : Bool :=
  let principal := label.kind == if axis = .attribute then .attribute else .element
  let namespaceUri := label.uri.filter (· != "")
  match test with
  | .wildcard => principal
  | .name _ localPart uri =>
      principal && label.name.any (·.localPart == localPart) && namespaceUri == uri
  | .namespaceWildcard _ uri => principal && namespaceUri.isSome && namespaceUri == uri
  | .text => label.kind == .text
  | .node => true
  | .comment => label.kind == .comment
  | .instruction none => label.kind == .instruction
  | .instruction (some target) =>
      label.kind == .instruction && label.name.any (·.localPart == target)

/-- The nodes on an axis that pass a test, by proximity. -/
def Tree.stepNodes (tree : Tree) (axis : Axis) (test : NodeTest) (node : Address) :
    List Address :=
  (tree.axisNodes axis node).filter fun candidate =>
    (tree.label? candidate).any (test.passes axis)

/-- Whether a predicate with this value keeps the node at this place. -/
def Value.keeps (position : Nat) : Value → Bool
  | .scalar (.number n) => n.equal (.ofNat position)
  | value => value.toBool

def Value.requireNodes (place : NodeSetPlace) : Value → Except XPathError (List Address)
  | .nodes addresses => .ok addresses
  | .scalar s => .error (.type (.operand place s.type))

/-- Joins what each node leads to, and fails with the first node that does. -/
def gather (follow : Address → Except XPathError (List Address)) :
    List Address → Except XPathError (List Address)
  | [] => .ok []
  | node :: rest => do
      let first ← follow node
      let others ← gather follow rest
      return first ++ others

/-- Keeps the nodes for which a predicate holds, numbered from `position` on. -/
def keepNodes (predicate : Context → Except XPathError Value) (root : Address) (size : Nat)
    (position : Nat) : List Address → Except XPathError (List Address)
  | [] => .ok []
  | node :: rest => do
      let value ← predicate ⟨node, root, position, size⟩
      let others ← keepNodes predicate root size (position + 1) rest
      return if value.keeps position then node :: others else others

mutual

def evaluate (tree : Tree) : Expr → Context → Except XPathError Value
  | .literal text, _ => .ok (.string text)
  | .number value, _ => .ok (.number value)
  | .path start steps, context => do
      let nodes ← startNodes tree start context
      let nodes ← walk tree steps context.root nodes
      return .nodes nodes
  | .filter base predicates, context => do
      let value ← evaluate tree base context
      let nodes ← value.requireNodes .filterBase
      let nodes ← narrow tree predicates context.root nodes
      return .nodes nodes
  | .call function arguments, context => do
      let values ← evaluateAll tree arguments context
      callFunction tree context function values
  | .binary operator left right, context => do
      let leftValue ← evaluate tree left context
      match operator with
      | .or =>
          if leftValue.toBool then .ok (.boolean true)
          else
            let rightValue ← evaluate tree right context
            return .boolean rightValue.toBool
      | .and =>
          if leftValue.toBool then
            let rightValue ← evaluate tree right context
            return .boolean rightValue.toBool
          else .ok (.boolean false)
      | _ =>
          let rightValue ← evaluate tree right context
          operator.apply tree leftValue rightValue
  | .negate operand, context => do
      let value ← evaluate tree operand context
      return .number (value.toNumber tree).neg

def evaluateAll (tree : Tree) : List Expr → Context → Except XPathError (List Value)
  | [], _ => .ok []
  | e :: rest, context => do
      let value ← evaluate tree e context
      let values ← evaluateAll tree rest context
      return value :: values

def startNodes (tree : Tree) : PathStart → Context → Except XPathError (List Address)
  | .root, context => .ok [context.root]
  | .context, context => .ok [context.node]
  | .expr e, context => do
      let value ← evaluate tree e context
      value.requireNodes .pathStart

/-- Takes steps from a list of nodes; `root` is where absolute paths start. -/
def walk (tree : Tree) : List Step → Address → List Address →
    Except XPathError (List Address)
  | [], _, nodes => .ok nodes
  | .step axis test predicates :: rest, root, nodes => do
      let reached ← gather
        (fun node => narrow tree predicates root (tree.stepNodes axis test node)) nodes
      walk tree rest root (NodeSet.ofList reached)

/-- Narrows a list of nodes by one predicate after the other. -/
def narrow (tree : Tree) : List Expr → Address → List Address →
    Except XPathError (List Address)
  | [], _, nodes => .ok nodes
  | predicate :: rest, root, nodes => do
      let kept ← keepNodes (fun context => evaluate tree predicate context) root nodes.length 1
        nodes
      narrow tree rest root kept

end

section
variable (tree : Tree) (context : Context) (root : Address) (nodes : List Address)

@[simp]
theorem evaluate_literal (text : String) :
    evaluate tree (.literal text) context = .ok (.string text) := by
  rw [evaluate]

@[simp]
theorem evaluate_number (value : Double) :
    evaluate tree (.number value) context = .ok (.number value) := by
  rw [evaluate]

@[simp]
theorem evaluateAll_nil : evaluateAll tree [] context = .ok [] := by
  rw [evaluateAll]

@[simp]
theorem startNodes_root : startNodes tree .root context = .ok [context.root] := by
  rw [startNodes]

@[simp]
theorem startNodes_context : startNodes tree .context context = .ok [context.node] := by
  rw [startNodes]

@[simp]
theorem walk_nil : walk tree [] root nodes = .ok nodes := by
  rw [walk]

@[simp]
theorem narrow_nil : narrow tree [] root nodes = .ok nodes := by
  rw [narrow]

end

end XPathQuery
