import XPathQuery.Expr.Token

/-!
The grammar of expressions. Each production is a reader that takes the reader
of whole expressions where the grammar nests, and the nesting is bounded by the
text, because every bracket around an expression takes a character. Operators
bind, from weak to strong: or, and, equality, relations, sums, products, minus,
union; those of one level group to the left.
-/
namespace XPathQuery.Grammar

open Token

def axes : List (Axis × String) :=
  [(.child, "child"), (.descendantOrSelf, "descendant-or-self"), (.descendant, "descendant"),
    (.attribute, "attribute"), (.parent, "parent"), (.ancestorOrSelf, "ancestor-or-self"),
    (.ancestor, "ancestor"), (.self, "self"), (.followingSibling, "following-sibling"),
    (.precedingSibling, "preceding-sibling"), (.following, "following"),
    (.preceding, "preceding")]

/-- An axis name and the two colons after it. A longer name stands before its own
beginning in the table, so the first that matches is the one written. -/
def axis : Reader Axis := fun cs =>
  match firstOf (axes.map fun (axis, word) => (axis, symbol word)) cs with
  | some (axis, rest) => (spaced "::" rest).map fun rest => (axis, rest)
  | none => none

def emptyParentheses (cs : List Char) : Option (List Char) :=
  (spaced "(" cs).bind (symbol ")")

/-- The parentheses of an instruction test and the target between them. -/
def instructionTarget : Reader (Option String) := fun cs =>
  match spaced "(" cs with
  | none => none
  | some rest =>
      match literal rest with
      | some (target, rest) =>
          (symbol ")" (skipBlanks rest)).map fun rest => (some (String.ofList target), rest)
      | none => (symbol ")" rest).map fun rest => (none, rest)

def nodeTypeTest : Reader NodeTest := fun cs =>
  firstOf
      [(NodeTest.text, fun cs => (keyword "text" cs).bind emptyParentheses),
        (.node, fun cs => (keyword "node" cs).bind emptyParentheses),
        (.comment, fun cs => (keyword "comment" cs).bind emptyParentheses)] cs
    <|> ((keyword "processing-instruction" cs).bind instructionTarget).map
      fun (target, rest) => (.instruction target, rest)

def namespaceWildcard : Reader NodeTest := fun cs =>
  match name cs with
  | some (nsPrefix, rest) =>
      (symbol ":*" rest).map fun rest => (.namespaceWildcard (String.ofList nsPrefix) none, rest)
  | none => none

def nameTest : Reader NodeTest := fun cs =>
  (qualifiedName cs).map fun ((nsPrefix, localPart), rest) =>
    (.name (nsPrefix.map String.ofList) (String.ofList localPart) none, rest)

def nodeTest : Reader NodeTest := fun cs =>
  ((symbol "*" cs).map fun rest => (NodeTest.wildcard, rest))
    <|> nodeTypeTest cs <|> namespaceWildcard cs <|> nameTest cs

/-- A full stop that no digit follows. -/
def selfAbbreviation (cs : List Char) : Option (List Char) :=
  match symbol "." cs with
  | some (c :: rest) => if c.isDigit then none else some (c :: rest)
  | other => other

/-- The axis and the test of a step, or one of the abbreviations for both. -/
def stepHead : Reader (Axis × NodeTest) := fun cs =>
  ((symbol ".." cs).map fun rest => ((Axis.parent, NodeTest.node), rest))
    <|> ((selfAbbreviation cs).map fun rest => ((Axis.self, NodeTest.node), rest))
    <|> (((spaced "@" cs).bind nodeTest).map fun (test, rest) => ((Axis.attribute, test), rest))
    <|> (match axis cs with
      | some (axis, rest) => (nodeTest rest).map fun (test, rest) => ((axis, test), rest)
      | none => (nodeTest cs).map fun (test, rest) => ((Axis.child, test), rest))

def predicate (expr : Reader Expr) : Reader Expr := fun cs =>
  match spaced "[" cs with
  | none => none
  | some rest =>
      match expr rest with
      | some (e, rest) => (spaced "]" rest).map fun rest => (e, rest)
      | none => none

def step (expr : Reader Expr) : Reader Step := fun cs =>
  (stepHead cs).map fun ((axis, test), rest) =>
    let (predicates, rest) := many (predicate expr) rest
    (.step axis test predicates, rest)

/-- A slash or two before a step. Two slashes stand for one step more. -/
def furtherStep (expr : Reader Expr) : Reader (List Step) := fun cs =>
  match spaced "//" cs with
  | some rest => (step expr rest).map fun (s, rest) => ([Step.descendantOrSelf, s], rest)
  | none =>
      match spaced "/" cs with
      | some rest => (step expr rest).map fun (s, rest) => ([s], rest)
      | none => none

def furtherSteps (expr : Reader Expr) (cs : List Char) : List Step × List Char :=
  let (steps, rest) := many (furtherStep expr) cs
  (steps.flatten, rest)

def relativeSteps (expr : Reader Expr) : Reader (List Step) := fun cs =>
  (step expr cs).map fun (first, rest) =>
    let (more, rest) := furtherSteps expr rest
    (first :: more, rest)

/-- A slash that no step follows stands for the root alone. -/
def locationPath (expr : Reader Expr) : Reader Expr := fun cs =>
  match symbol "//" cs with
  | some rest =>
      (relativeSteps expr rest).map fun (steps, rest) =>
        (.path .root (Step.descendantOrSelf :: steps), rest)
  | none =>
      match symbol "/" cs with
      | some rest =>
          match relativeSteps expr rest with
          | some (steps, rest) => some (.path .root steps, rest)
          | none => some (.path .root [], rest)
      | none =>
          (relativeSteps expr cs).map fun (steps, rest) => (.path .context steps, rest)

def nodeTypeNames : List String := ["text", "node", "comment", "processing-instruction"]

def qualifiedText : Option (List Char) × List Char → String
  | (some nsPrefix, localPart) => String.ofList (nsPrefix ++ ':' :: localPart)
  | (none, localPart) => String.ofList localPart

/-- The arguments of a call, separated by commas. -/
def arguments (expr : Reader Expr) (cs : List Char) : List Expr × List Char :=
  match expr cs with
  | none => ([], cs)
  | some (first, rest) =>
      let (more, rest) := many (fun cs => (spaced "," cs).bind expr) rest
      (first :: more, rest)

/-- A call is a name with a parenthesis after it, unless the name is a node type. -/
def call (expr : Reader Expr) : Reader Expr := fun cs =>
  match qualifiedName cs with
  | none => none
  | some (name, rest) =>
      let function := qualifiedText name
      match symbol "(" (skipBlanks rest) with
      | none => none
      | some rest =>
          if nodeTypeNames.contains function then none
          else
            let (arguments, rest) := arguments expr rest
            (spaced ")" rest).map fun rest => (.call function arguments, rest)

def parenthesized (expr : Reader Expr) : Reader Expr := fun cs =>
  match spaced "(" cs with
  | none => none
  | some rest =>
      match expr rest with
      | some (e, rest) => (spaced ")" rest).map fun rest => (e, rest)
      | none => none

def unspacedPrimary (expr : Reader Expr) : Reader Expr := fun cs =>
  ((number cs).map fun (value, rest) => (.number value, rest))
    <|> ((literal cs).map fun (text, rest) => (.literal (String.ofList text), rest))
    <|> call expr cs
    <|> parenthesized expr cs

/-- A primary expression and the blanks around it. -/
def primary (expr : Reader Expr) : Reader Expr := fun cs =>
  (unspacedPrimary expr (skipBlanks cs)).map fun (e, rest) => (e, skipBlanks rest)

def filtered (expr : Reader Expr) : Reader Expr := fun cs =>
  (primary expr cs).map fun (base, rest) =>
    match many (predicate expr) rest with
    | ([], rest) => (base, rest)
    | (predicates, rest) => (.filter base predicates, rest)

/-- A primary expression with its predicates and further steps, or else a
location path and the blanks around it. Calls are tried before steps, so a name
with a parenthesis after it is a step only where it cannot be a call. -/
def path (expr : Reader Expr) : Reader Expr := fun cs =>
  match filtered expr cs with
  | some (start, rest) =>
      match furtherSteps expr rest with
      | ([], rest) => some (start, rest)
      | (steps, rest) => some (.path (.expr start) steps, rest)
  | none =>
      (locationPath expr (skipBlanks cs)).map fun (e, rest) => (e, skipBlanks rest)

/-- Operands of one level with the operators between them, grouped to the left. -/
def level (operator : Reader Operator) (operand : Reader Expr) : Reader Expr := fun cs =>
  (operand cs).map fun (first, rest) =>
    let (more, rest) := many
      (fun cs => (operator (skipBlanks cs)).bind fun (operator, rest) =>
        (operand (skipBlanks rest)).map fun (right, rest) => ((operator, right), rest)) rest
    (more.foldl (fun left (operator, right) => .binary operator left right) first, rest)

def unionOperator : Reader Operator := firstOf [(.union, symbol "|")]

def productOperator : Reader Operator :=
  firstOf [(.arithmetic .multiply, symbol "*"), (.arithmetic .divide, keyword "div"),
    (.arithmetic .remainder, keyword "mod")]

def sumOperator : Reader Operator :=
  firstOf [(.arithmetic .add, symbol "+"), (.arithmetic .subtract, symbol "-")]

def relationOperator : Reader Operator :=
  firstOf [(.comparison .lessOrEqual, symbol "<="), (.comparison .greaterOrEqual, symbol ">="),
    (.comparison .less, symbol "<"), (.comparison .greater, symbol ">")]

def equalityOperator : Reader Operator :=
  firstOf [(.comparison .notEqual, symbol "!="), (.comparison .equal, symbol "=")]

def andOperator : Reader Operator := firstOf [(.and, keyword "and")]

def orOperator : Reader Operator := firstOf [(.or, keyword "or")]

/-- Any number of minus signs before an operand. -/
def negated (operand : Reader Expr) : Reader Expr := fun cs =>
  let (signs, rest) := many (fun cs => (spaced "-" cs).map fun rest => ((), rest)) cs
  (operand rest).map fun (e, rest) => (signs.foldl (fun e _ => .negate e) e, rest)

/-- The whole grammar above `expr`, the reader of nested expressions. -/
def expression (expr : Reader Expr) : Reader Expr :=
  level orOperator (level andOperator (level equalityOperator (level relationOperator
    (level sumOperator (level productOperator (negated (level unionOperator (path expr))))))))

/-- Expressions nested at most as deep as `bound` has elements. -/
def expressionWithin : List Char → Reader Expr
  | [] => fun _ => none
  | _ :: bound => expression (expressionWithin bound)

/-- Reads the longest expression that a text begins with. A nested expression
follows a bracket, so the text bounds how deep it can nest. -/
def expr : Reader Expr := fun cs => expressionWithin (' ' :: cs) cs

end XPathQuery.Grammar
