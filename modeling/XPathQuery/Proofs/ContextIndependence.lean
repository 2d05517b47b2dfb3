import XPathQuery.Proofs.StaticTypes

/-!
Closed expressions. An expression reads its context where it starts a path at the
context node or calls a function that looks at the node, its place or the number of
places. Predicates set up contexts of their own, so what they read does not matter. An
expression that reads nothing of its context has the same value, or fails in the same
way, at every node of a document, since the root is the same from everywhere.
-/
namespace XPathQuery

/-- Whether a function looks at the context when it is called with so many arguments. With
another number it is refused before it looks at anything. -/
def CoreFunction.readsContext (count : Nat) : CoreFunction → Bool
  | last | position | string | number | name | localName | namespaceUri | stringLength |
      normalizeSpace => count == 0
  | lang => count == 1
  | _ => false

namespace Expr

def readsContext : Expr → Bool
  | path .context _ => true
  | call function arguments =>
      (CoreFunction.ofName? function).any (CoreFunction.readsContext arguments.length)
  | _ => false

/-- The parts that are evaluated in the context of the whole: all but predicates. -/
def outerParts : Expr → List Expr
  | path start _ => start.parts
  | filter base _ => [base]
  | call _ arguments => arguments
  | binary _ left right => [left, right]
  | negate operand => [operand]
  | _ => []

inductive IsClosed : Expr → Prop
  | of_parts (e : Expr) (hreads : e.readsContext = false)
      (hparts : ∀ part ∈ e.outerParts, IsClosed part) : IsClosed e

/-- An absolute path is closed, whatever its predicates are. -/
theorem isClosed_absolute (steps : List Step) : (path .root steps).IsClosed :=
  IsClosed.of_parts _ rfl nofun

end Expr

namespace CoreFunction

section Apply
variable (tree : Tree) (context context' : Context) (f : CoreFunction) (arguments : List Value)

theorem chosenNode_congr (h : arguments ≠ []) :
    f.chosenNode context arguments = f.chosenNode context' arguments := by
  cases arguments with
  | nil => exact absurd rfl h
  | cons value rest => rfl

theorem chosenValue_congr (h : arguments ≠ []) :
    chosenValue context arguments = chosenValue context' arguments := by
  cases arguments with
  | nil => exact absurd rfl h
  | cons value rest => rfl

/-- With arguments that it accepts, a function that does not look at the context gives the
same in every context. -/
theorem apply_congr (haccepts : f.arity.accepts arguments.length = true)
    (hreads : f.readsContext arguments.length = false) :
    f.apply tree context arguments = f.apply tree context' arguments := by
  cases f
  case last | position =>
    have hcount : arguments.length ≠ 0 := by simpa [readsContext] using hreads
    have hmost := le_most_of_accepts _ _ haccepts 0 rfl
    exact absurd (Nat.le_zero.mp hmost) hcount
  case lang =>
    have hcount : arguments.length ≠ 1 := by simpa [readsContext] using hreads
    have hleast := least_le_of_accepts _ _ haccepts
    have hmost := le_most_of_accepts _ _ haccepts 1 rfl
    exact absurd (Nat.le_antisymm hmost hleast) hcount
  case string | number | stringLength | normalizeSpace =>
    have hsome : arguments ≠ [] := by simpa [readsContext] using hreads
    have hvalue := chosenValue_congr context context' arguments hsome
    simp only [apply, hvalue]
  case name | localName | namespaceUri =>
    have hsome : arguments ≠ [] := by simpa [readsContext] using hreads
    simp only [apply, chosenNode_congr context context' _ arguments hsome]
  all_goals rfl

end Apply

end CoreFunction

/-- A call that does not look at the context gives the same in every context. -/
theorem callFunction_congr (tree : Tree) (context context' : Context) (function : String)
    (arguments : List Value)
    (hreads : (CoreFunction.ofName? function).any
      (CoreFunction.readsContext arguments.length) = false) :
    callFunction tree context function arguments =
      callFunction tree context' function arguments := by
  unfold callFunction
  cases hvalid : Registry.core.validate function arguments.length with
  | error e => rfl
  | ok _ =>
    obtain ⟨f, hf, haccepts⟩ := (Registry.validate_core_eq_ok_iff _ _).mp hvalid
    rw [hf] at hreads
    simp only [hf]
    exact f.apply_congr tree context context' arguments haccepts hreads

section Evaluation
variable (tree : Tree) (context context' : Context)

theorem startNodes_congr (start : PathStart) (hstart : start ≠ .context)
    (hroot : context.root = context'.root)
    (hparts : ∀ e ∈ start.parts, evaluate tree e context = evaluate tree e context') :
    startNodes tree start context = startNodes tree start context' := by
  cases start with
  | root => rw [startNodes_root, startNodes_root, hroot]
  | context => exact absurd rfl hstart
  | expr e => rw [startNodes, startNodes, hparts e (List.mem_singleton_self e)]

theorem evaluateAll_congr (es : List Expr)
    (h : ∀ e ∈ es, evaluate tree e context = evaluate tree e context') :
    evaluateAll tree es context = evaluateAll tree es context' := by
  induction es with
  | nil => rw [evaluateAll_nil, evaluateAll_nil]
  | cons e rest ih =>
    obtain ⟨he, hrest⟩ := List.forall_mem_cons.mp h
    rw [evaluateAll, evaluateAll, he, ih hrest]

/-- Of two contexts of one document, a closed expression cannot tell which is its own. -/
theorem Expr.IsClosed.evaluate_congr {e : Expr} (h : e.IsClosed)
    (hroot : context.root = context'.root) :
    evaluate tree e context = evaluate tree e context' := by
  induction h with
  | of_parts e hreads hclosed ih =>
    cases e with
    | literal text => rw [evaluate_literal, evaluate_literal]
    | number value => rw [evaluate_number, evaluate_number]
    | path start steps =>
      have hstart : start ≠ .context := by
        rintro rfl
        cases hreads
      rw [evaluate, evaluate, startNodes_congr tree context context' start hstart hroot ih, hroot]
    | filter base predicates =>
      rw [evaluate, evaluate, ih base (List.mem_singleton_self base), hroot]
    | call function arguments =>
      rw [evaluate, evaluate, evaluateAll_congr tree context context' arguments ih]
      refine bind_congr_of_eq_ok fun values hvalues => ?_
      have hlength := length_of_evaluateAll tree arguments context' values hvalues
      exact callFunction_congr tree context context' function values (hlength ▸ hreads)
    | binary operator left right =>
      rw [evaluate, evaluate, ih left List.mem_cons_self,
        ih right (List.mem_cons_of_mem left (List.mem_singleton_self right))]
    | negate operand =>
      rw [evaluate, evaluate, ih operand (List.mem_singleton_self operand)]

end Evaluation

def Address.topmost : Address → Address
  | [] => []
  | _ :: parent => topmost parent

theorem Address.topmost_eq_nil (a : Address) : a.topmost = [] := by
  induction a with
  | nil => rfl
  | cons branch parent ih => exact ih

/-- A closed expression has one value, or one error, for all nodes of a document, places
and numbers of places, and so has every absolute path. -/
theorem evaluate_eq_anywhere (tree : Tree) (n m : Address) (position size position' size' : Nat) :
    (∀ e : Expr, e.IsClosed →
      evaluate tree e ⟨n, n.topmost, position, size⟩ =
        evaluate tree e ⟨m, m.topmost, position', size'⟩) ∧
    ∀ steps : List Step,
      evaluate tree (.path .root steps) ⟨n, n.topmost, position, size⟩ =
        evaluate tree (.path .root steps) ⟨m, m.topmost, position', size'⟩ := by
  have hroot : n.topmost = m.topmost := n.topmost_eq_nil.trans m.topmost_eq_nil.symm
  constructor
  · intro e he
    exact he.evaluate_congr tree _ _ hroot
  · intro steps
    exact (Expr.isClosed_absolute steps).evaluate_congr tree _ _ hroot

/-- A call outside predicates on what predicates choose by place and by their own node. -/
theorem evaluate_eq_anywhere_count :
    let element : Label := ⟨.element, some ⟨none, "a"⟩, none, "", []⟩
    let own : Label := ⟨.attribute, some ⟨none, "x"⟩, none, "u", []⟩
    let tree : Tree := .node element []
      [.node element [] [], .node element [.node own [] []] []]
    let e : Expr := .call "count"
      [.path .root [.step .child (.name none "a" none)
        [.binary (.comparison .equal) (.call "position" []) (.call "last" []),
          .path .context [.step .attribute .wildcard []]]]]
    e.IsClosed ∧ (evaluate tree e ⟨[], [], 1, 1⟩).toOption = some (.number (.ofNat 1)) ∧
      (evaluate tree e ⟨[.attribute 0, .child 1], [], 2, 3⟩).toOption =
        some (.number (.ofNat 1)) := by
  intro element own tree e
  have hclosed : e.IsClosed := by
    refine Expr.IsClosed.of_parts _ (by decide +kernel) fun part hpart => ?_
    obtain rfl := List.mem_singleton.mp hpart
    exact Expr.isClosed_absolute _
  have hvalue : (evaluate tree e ⟨[], [], 1, 1⟩).toOption = some (.number (.ofNat 1)) := by
    decide +kernel
  have hsame := (evaluate_eq_anywhere tree [.attribute 0, .child 1] [] 2 3 1 1).1 e hclosed
  exact ⟨hclosed, hvalue, (congrArg Except.toOption hsame).trans hvalue⟩

end XPathQuery
