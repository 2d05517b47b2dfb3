import XPathQuery.Proofs.ComparedResults
import XPathQuery.Proofs.NodeSetOrder

/-!
Comparisons of values of any two types. Each value stands for some scalars against the other
one: a node-set for the string values of its nodes, or for whether it has any where the other
value is a boolean. A comparison holds when it holds for some of these on each side, so it
may be turned round, and with anything but a boolean a node-set compares as one of its nodes
does. It then holds for a union when it does for one of its sides.
-/
namespace XPathQuery

def Comparison.mirror : Comparison → Comparison
  | equal => equal
  | notEqual => notEqual
  | less => greater
  | lessOrEqual => greaterOrEqual
  | greater => less
  | greaterOrEqual => lessOrEqual

namespace Scalar

theorem equals_comm (a b : Scalar) : a.equals b = b.equals a := by
  cases a with
  | string text =>
    cases b with
    | string _ => exact BEq.comm
    | number _ => exact Double.equal_comm _ _
    | boolean _ => exact BEq.comm
  | number value =>
    cases b with
    | string _ => exact Double.equal_comm _ _
    | number _ => exact Double.equal_comm _ _
    | boolean _ => exact BEq.comm
  | boolean truth => cases b <;> exact BEq.comm

theorem compare_mirror (relation : Comparison) (a b : Scalar) :
    a.compare relation b = b.compare relation.mirror a := by
  cases relation with
  | equal => exact equals_comm a b
  | notEqual => exact congrArg not (equals_comm a b)
  | less => rfl
  | lessOrEqual => rfl
  | greater => rfl
  | greaterOrEqual => rfl

end Scalar

private theorem any_any_comm {α β : Type} (holds : α → β → Bool) (as : List α) (bs : List β) :
    (as.any fun a => bs.any (holds a)) = bs.any fun b => as.any fun a => holds a b := by
  rw [Bool.eq_iff_iff]
  simp only [List.any_eq_true]
  constructor
  · intro h
    obtain ⟨a, ha, b, hb, hholds⟩ := h
    exact ⟨b, hb, a, ha, hholds⟩
  · intro h
    obtain ⟨b, hb, a, ha, hholds⟩ := h
    exact ⟨a, ha, b, hb, hholds⟩

namespace Value
variable (tree : Tree)

def readings (value other : Value) : List Scalar :=
  match value with
  | nodes addresses =>
      if other.type = .boolean then [.boolean !addresses.isEmpty]
      else addresses.map fun n => .string (tree.stringValueOf n)
  | scalar s => [s]

/-- A comparison holds when it does for something that each side stands for. -/
theorem compare_eq_any (relation : Comparison) (left right : Value) :
    left.compare tree relation right =
      (left.readings tree right).any fun a =>
        (right.readings tree left).any fun b => a.compare relation b := by
  cases left with
  | nodes l =>
    cases right with
    | nodes r => simp [compare, readings, type, List.any_map, Function.comp_def]
    | scalar s =>
      cases s <;> simp [compare, readings, type, Scalar.type, List.any_map, Function.comp_def]
  | scalar s =>
    cases right with
    | nodes r =>
      cases s <;> simp [compare, readings, type, Scalar.type, List.any_map, Function.comp_def]
    | scalar t => cases s <;> simp [compare, readings]

theorem compare_eq_mirror (relation : Comparison) (left right : Value) :
    left.compare tree relation right = right.compare tree relation.mirror left := by
  rw [compare_eq_any, compare_eq_any, any_any_comm]
  simp only [Scalar.compare_mirror relation]

theorem readings_nodes (addresses : List Address) {value : Value}
    (hvalue : value.type ≠ .boolean) : (nodes addresses).readings tree value =
      addresses.map fun n => .string (tree.stringValueOf n) := if_neg hvalue

/-- Of the other value only matters whether it is a boolean. -/
theorem readings_congr (value : Value) {other another : Value}
    (h : other.type = .boolean ↔ another.type = .boolean) :
    value.readings tree other = value.readings tree another := by
  cases value with
  | nodes addresses => simp only [readings, h]
  | scalar s => rfl

/-- Against anything but a boolean a node-set compares as one of its nodes does. -/
theorem compare_nodes_eq_any (relation : Comparison) (addresses : List Address) (value : Value)
    (hvalue : value.type ≠ .boolean) :
    (nodes addresses).compare tree relation value =
      addresses.any fun n => (nodes [n]).compare tree relation value := by
  have hvalues : ∀ addresses, value.readings tree (nodes addresses) =
      value.readings tree (nodes []) := fun _ => readings_congr tree value Iff.rfl
  simp only [compare_eq_any, readings_nodes tree _ hvalue, hvalues, List.any_map,
    Function.comp_def, List.map_cons, List.map_nil, List.any_cons, List.any_nil, Bool.or_false]

/-- A node by itself compares as its string value does. -/
theorem compare_singleton (relation : Comparison) (n : Address) (value : Value)
    (hvalue : value.type ≠ .boolean) :
    (nodes [n]).compare tree relation value =
      (string (tree.stringValueOf n)).compare tree relation value := by
  have hvalues : value.readings tree (nodes [n]) =
      value.readings tree (string (tree.stringValueOf n)) :=
    readings_congr tree value (by simp [type, string, Scalar.type])
  rw [compare_eq_any, compare_eq_any, readings_nodes tree [n] hvalue, hvalues]
  rfl

end Value

/-- A comparison holds when it does for something that each side stands for. So operands may
change sides when it is turned round: the values compare alike, and so do the expressions
that give them, or both comparisons fail. -/
theorem compare_sides (tree : Tree) (relation : Comparison) :
    (∀ left right : Value, left.compare tree relation right =
      (left.readings tree right).any fun a =>
        (right.readings tree left).any fun b => a.compare relation b) ∧
    (∀ left right : Value,
      left.compare tree relation right = right.compare tree relation.mirror left) ∧
    ∀ (left right : Expr) (context : Context), SameResult
      (evaluate tree (.binary (.comparison relation) left right) context)
      (evaluate tree (.binary (.comparison relation.mirror) right left) context) := by
  refine ⟨Value.compare_eq_any tree relation, Value.compare_eq_mirror tree relation,
    fun left right context value => ?_⟩
  rw [evaluate_binary_eq_ok tree _ (by simp) (by simp),
    evaluate_binary_eq_ok tree _ (by simp) (by simp)]
  simp only [Operator.apply, Value.compare_eq_mirror tree relation]
  constructor
  · intro h
    obtain ⟨l, r, hl, hr, happly⟩ := h
    exact ⟨r, l, hr, hl, happly⟩
  · intro h
    obtain ⟨r, l, hr, hl, happly⟩ := h
    exact ⟨l, r, hl, hr, happly⟩

/-- A condition on a node-set that asks for some node, and nothing of the others: a union
meets it when a side does, and more nodes cannot spoil it. -/
structure AsksForSomeNode (holds : Value → Bool) : Prop where
  union : ∀ left right, ∃ united, (Value.nodes left).union (.nodes right) = .ok united ∧
    holds united = (holds (.nodes left) || holds (.nodes right))
  congr : ∀ nodes others : List Address, (∀ n, n ∈ nodes ↔ n ∈ others) →
    holds (.nodes nodes) = holds (.nodes others)
  empty : holds (.nodes []) = false
  mono : ∀ nodes others : List Address, nodes ⊆ others → holds (.nodes nodes) = true →
    holds (.nodes others) = true

theorem asksForSomeNode_of_any {holds : Value → Bool}
    (h : ∀ nodes, holds (.nodes nodes) = nodes.any fun n => holds (.nodes [n])) :
    AsksForSomeNode holds := by
  have hmono : ∀ nodes others : List Address, nodes ⊆ others → holds (.nodes nodes) = true →
      holds (.nodes others) = true := by
    intro nodes others hsubset hholds
    rw [h] at hholds ⊢
    obtain ⟨n, hn, hholds⟩ := List.any_eq_true.mp hholds
    exact List.any_eq_true.mpr ⟨n, hsubset hn, hholds⟩
  have hcongr : ∀ nodes others : List Address, (∀ n, n ∈ nodes ↔ n ∈ others) →
      holds (.nodes nodes) = holds (.nodes others) := by
    intro nodes others hsame
    rw [Bool.eq_iff_iff]
    exact ⟨hmono nodes others fun n => (hsame n).mp, hmono others nodes fun n => (hsame n).mpr⟩
  refine ⟨fun left right => ⟨_, rfl, ?_⟩, hcongr, h [], hmono⟩
  rw [hcongr _ (left ++ right) fun n => NodeSet.mem_ofList, h, List.any_append, ← h, ← h]

/-- On either side of a comparison with anything but a boolean, a node-set is asked for some
node, and each node for its string value. With a boolean it only matters whether there is
a node. -/
theorem compare_union (tree : Tree) (relation : Comparison) :
    (∀ value : Value, value.type ≠ .boolean →
      (∀ n, (Value.nodes [n]).compare tree relation value =
        (Value.string (tree.stringValueOf n)).compare tree relation value) ∧
      AsksForSomeNode (fun nodes => nodes.compare tree relation value) ∧
      AsksForSomeNode (fun nodes => value.compare tree relation nodes)) ∧
    ∀ (truth : Bool) (nodes others : List Address), (nodes = [] ↔ others = []) →
      (Value.nodes nodes).compare tree relation (.boolean truth) =
        (Value.nodes others).compare tree relation (.boolean truth) ∧
      (Value.boolean truth).compare tree relation (.nodes nodes) =
        (Value.boolean truth).compare tree relation (.nodes others) := by
  constructor
  · intro value hvalue
    refine ⟨fun n => Value.compare_singleton tree relation n value hvalue, ?_, ?_⟩
    · exact asksForSomeNode_of_any fun nodes =>
        Value.compare_nodes_eq_any tree relation nodes value hvalue
    · simp only [Value.compare_eq_mirror tree relation value]
      exact asksForSomeNode_of_any fun nodes =>
        Value.compare_nodes_eq_any tree relation.mirror nodes value hvalue
  · intro truth nodes others hsame
    have hempty : nodes.isEmpty = others.isEmpty := by
      rw [Bool.eq_iff_iff, List.isEmpty_iff, List.isEmpty_iff, hsame]
    simp only [Value.boolean, Value.compare, hempty, and_self]

/-- One node of the union is equal to the text and the other one is not, so it is equal to
the text, and the text is not equal to it. No node is equal to a text of neither. -/
theorem compare_union_differing :
    let leaf := fun text : String => Tree.node ⟨.text, none, none, text, []⟩ [] []
    let tree := Tree.node ⟨.root, none, none, "", []⟩ [] [leaf "1", leaf "2"]
    (Value.string "1").type ≠ .boolean ∧
    ∃ united, (Value.nodes [[.child 0]]).union (.nodes [[.child 1]]) = .ok united ∧
      united.compare tree .equal (.string "1") = true ∧
      (Value.string "1").compare tree .notEqual united = true ∧
      united.compare tree .equal (.string "3") = false := by
  intro leaf tree
  have hvalue : (Value.string "1").type ≠ .boolean := by decide
  obtain ⟨-, hleft, -⟩ := (compare_union tree .equal).1 (.string "1") hvalue
  obtain ⟨-, -, hright⟩ := (compare_union tree .notEqual).1 (.string "1") hvalue
  obtain ⟨-, hneither, -⟩ := (compare_union tree .equal).1 (.string "3") (by decide)
  obtain ⟨united, hunited, hequal⟩ := hleft.union [[.child 0]] [[.child 1]]
  obtain ⟨other, hother, hnotEqual⟩ := hright.union [[.child 0]] [[.child 1]]
  obtain ⟨third, hthird, hunequal⟩ := hneither.union [[.child 0]] [[.child 1]]
  obtain rfl : other = united := Except.ok.inj (hother.symm.trans hunited)
  obtain rfl : third = other := Except.ok.inj (hthird.symm.trans hunited)
  refine ⟨hvalue, third, hunited, hequal.trans ?_, hnotEqual.trans ?_, hunequal.trans ?_⟩
  · decide
  · decide
  · decide

/-- Against a boolean the empty node-set is not nothing. -/
example : (Value.nodes []).compare (.node ⟨.root, none, none, "", []⟩ [] []) .equal
    (.boolean false) = true := by
  decide

end XPathQuery
