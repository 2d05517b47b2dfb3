import XPathQuery.Compiled
import XPathQuery.Proofs.BoundExpressions
import XPathQuery.Proofs.LocationPath
import XPathQuery.Proofs.StaticTypes

/-!
Type soundness. A well-typed expression whose calls are accepted evaluates at every
node to a value, because each form of expression does so once its parts do. Binding
checks the calls, so a compiled expression that is well-typed never fails. Whether
the result can be asked for as nodes is known from the expression alone.
-/
namespace XPathQuery

section Evaluation
variable (tree : Tree)

theorem keepNodes_succeeds (predicate : Context → Except XPathError Value) (root : Address)
    (size position : Nat) (nodes : List Address)
    (h : ∀ context, ∃ value, predicate context = .ok value) :
    ∃ kept, keepNodes predicate root size position nodes = .ok kept :=
  (keepNodes_succeeds_iff predicate root size position nodes).mpr fun _ _ _ => h _

def Total (e : Expr) : Prop := ∀ context, ∃ value, evaluate tree e context = .ok value

theorem narrow_succeeds (predicates : List Expr) (root : Address) (nodes : List Address)
    (h : ∀ predicate ∈ predicates, Total tree predicate) :
    ∃ result, narrow tree predicates root nodes = .ok result := by
  induction predicates generalizing nodes with
  | nil => exact ⟨nodes, narrow_nil tree root nodes⟩
  | cons predicate rest ih =>
    obtain ⟨kept, hkept⟩ :=
      keepNodes_succeeds _ root nodes.length 1 nodes (h predicate List.mem_cons_self)
    obtain ⟨result, hresult⟩ := ih kept fun p hp => h p (List.mem_cons_of_mem predicate hp)
    exact ⟨result, (narrow_cons_eq_ok tree predicate rest root nodes result).mpr
      ⟨kept, hkept, hresult⟩⟩

theorem walk_succeeds (steps : List Step) (root : Address) (starts : List Address)
    (h : ∀ step ∈ steps, ∀ predicate ∈ step.predicates, Total tree predicate) :
    ∃ nodes, walk tree steps root starts = .ok nodes := by
  rw [walk_succeeds_iff]
  rintro before ⟨axis, test, predicates⟩ after rfl n _ m _
  have hmem : ∀ step : Step, step ∈ before ++ step :: after := fun step => by simp
  exact narrow_succeeds tree predicates root _ (h _ (hmem _))

theorem evaluateAll_succeeds (es : List Expr) (context : Context)
    (h : ∀ e ∈ es, Total tree e) : ∃ values, evaluateAll tree es context = .ok values := by
  induction es with
  | nil => exact ⟨[], evaluateAll_nil tree context⟩
  | cons e rest ih =>
    obtain ⟨value, hvalue⟩ := h e List.mem_cons_self context
    obtain ⟨others, hothers⟩ := ih fun e' he' => h e' (List.mem_cons_of_mem e he')
    exact ⟨_, (evaluateAll_cons_eq_ok tree e rest context _).mpr
      ⟨value, others, hvalue, hothers, rfl⟩⟩

/-- A path has a value when what it starts from is a node-set. -/
theorem path_total (start : PathStart) (steps : List Step)
    (htyped : (Expr.path start steps).PartsTyped)
    (hparts : ∀ part ∈ (Expr.path start steps).parts, Total tree part) :
    Total tree (.path start steps) := by
  intro context
  have hstart : ∃ starts, startNodes tree start context = .ok starts := by
    cases start with
    | root => exact ⟨_, startNodes_root tree context⟩
    | context => exact ⟨_, startNodes_context tree context⟩
    | expr e =>
      obtain ⟨value, hvalue⟩ := hparts e (by simp [Expr.parts, PathStart.parts]) context
      have htype : value.type = .nodeSet := (evaluate_type tree e context value hvalue).trans htyped
      obtain ⟨nodes, rfl⟩ := value.eq_nodes_of_type htype
      exact ⟨nodes, (startNodes_expr_eq_ok tree e context nodes).mpr hvalue⟩
  obtain ⟨starts, hstarts⟩ := hstart
  have hsteps : ∀ step ∈ steps, ∀ predicate ∈ step.predicates, Total tree predicate := by
    intro step hstep predicate hpredicate
    exact hparts predicate
      (List.mem_append_right _ (List.mem_flatMap.mpr ⟨step, hstep, hpredicate⟩))
  obtain ⟨nodes, hnodes⟩ := walk_succeeds tree steps context.root starts hsteps
  exact ⟨.nodes nodes, (evaluate_path_eq_ok tree start steps context _).mpr
    ⟨starts, nodes, hstarts, hnodes, rfl⟩⟩

theorem filter_total (base : Expr) (predicates : List Expr)
    (htyped : (Expr.filter base predicates).PartsTyped)
    (hparts : ∀ part ∈ (Expr.filter base predicates).parts, Total tree part) :
    Total tree (.filter base predicates) := by
  intro context
  obtain ⟨value, hvalue⟩ := hparts base List.mem_cons_self context
  have htype : value.type = .nodeSet :=
    (evaluate_type tree base context value hvalue).trans htyped
  obtain ⟨found, rfl⟩ := value.eq_nodes_of_type htype
  obtain ⟨nodes, hnodes⟩ := narrow_succeeds tree predicates context.root found
    fun predicate hpredicate => hparts predicate (List.mem_cons_of_mem base hpredicate)
  exact ⟨.nodes nodes, (evaluate_filter_eq_ok tree base predicates context _).mpr
    ⟨found, nodes, hvalue, hnodes, rfl⟩⟩

/-- An accepted call has a value when its arguments are what the function takes. -/
theorem call_total (function : String) (arguments : List Expr)
    (haccepted : (Expr.call function arguments).CallAccepted Registry.core)
    (htyped : (Expr.call function arguments).PartsTyped)
    (hparts : ∀ part ∈ (Expr.call function arguments).parts, Total tree part) :
    Total tree (.call function arguments) := by
  intro context
  obtain ⟨values, hvalues⟩ := evaluateAll_succeeds tree arguments context hparts
  have htypes := evaluateAll_types tree arguments context values hvalues
  have hvalid : Registry.core.validate function values.length = .ok () := by
    rw [length_of_evaluateAll tree arguments context values hvalues]
    exact haccepted
  obtain ⟨f, hf, _⟩ := (Registry.validate_core_eq_ok_iff _ _).mp hvalid
  have hnodes : f.takesNodes = true → ∀ value ∈ values, value.type = .nodeSet := by
    intro htakes value hvalue
    have hmem : value.type ∈ arguments.map Expr.staticType :=
      htypes ▸ List.mem_map_of_mem hvalue
    obtain ⟨argument, hargument, htype⟩ := List.mem_map.mp hmem
    rw [← htype]
    exact htyped f hf htakes argument hargument
  obtain ⟨value, hvalue⟩ :=
    callFunction_succeeds tree context function f hf values hvalid hnodes
  exact ⟨value, (evaluate_call_eq_ok tree function arguments context value).mpr
    ⟨values, hvalues, hvalue⟩⟩

/-- Both operands have values, so whether the right one counts does not matter. -/
theorem binary_total (operator : Operator) (left right : Expr)
    (htyped : (Expr.binary operator left right).PartsTyped)
    (hparts : ∀ part ∈ (Expr.binary operator left right).parts, Total tree part) :
    Total tree (.binary operator left right) := by
  intro context
  obtain ⟨l, hl⟩ := hparts left (by simp [Expr.parts]) context
  obtain ⟨r, hr⟩ := hparts right (by simp [Expr.parts]) context
  by_cases hor : operator = .or
  · subst hor
    cases htruth : l.toBool with
    | true => exact ⟨_, (evaluate_or_eq_ok tree _ _ _ _).mpr ⟨l, hl, Or.inl ⟨htruth, rfl⟩⟩⟩
    | false =>
      exact ⟨_, (evaluate_or_eq_ok tree _ _ _ _).mpr ⟨l, hl, Or.inr ⟨htruth, r, hr, rfl⟩⟩⟩
  by_cases hand : operator = .and
  · subst hand
    cases htruth : l.toBool with
    | false => exact ⟨_, (evaluate_and_eq_ok tree _ _ _ _).mpr ⟨l, hl, Or.inl ⟨htruth, rfl⟩⟩⟩
    | true =>
      exact ⟨_, (evaluate_and_eq_ok tree _ _ _ _).mpr ⟨l, hl, Or.inr ⟨htruth, r, hr, rfl⟩⟩⟩
  have hoperands : operator = .union → l.type = .nodeSet ∧ r.type = .nodeSet := by
    intro h
    subst h
    exact ⟨(evaluate_type tree left context l hl).trans htyped.1,
      (evaluate_type tree right context r hr).trans htyped.2⟩
  obtain ⟨value, hvalue⟩ := operator.apply_succeeds tree l r hoperands
  exact ⟨value, (evaluate_binary_eq_ok tree operator hor hand left right context value).mpr
    ⟨l, r, hl, hr, hvalue⟩⟩

/-- A well-typed expression whose calls are all accepted never fails. -/
theorem evaluate_total (e : Expr) (htyped : e.WellTyped)
    (haccepted : e.Everywhere (Expr.CallAccepted Registry.core)) : Total tree e := by
  induction e using Expr.induct with
  | step e ih =>
    obtain ⟨htyped, htypedParts⟩ := (Expr.everywhere_iff _ e).mp htyped
    obtain ⟨haccepted, hacceptedParts⟩ := (Expr.everywhere_iff _ e).mp haccepted
    have hparts : ∀ part ∈ e.parts, Total tree part := fun part hpart =>
      ih part hpart (htypedParts part hpart) (hacceptedParts part hpart)
    cases e with
    | literal text => exact fun context => ⟨_, evaluate_literal tree context text⟩
    | number value => exact fun context => ⟨_, evaluate_number tree context value⟩
    | path start steps => exact path_total tree start steps htyped hparts
    | filter base predicates => exact filter_total tree base predicates htyped hparts
    | call function arguments => exact call_total tree function arguments haccepted htyped hparts
    | binary operator left right => exact binary_total tree operator left right htyped hparts
    | negate operand =>
      intro context
      obtain ⟨found, hfound⟩ := hparts operand (List.mem_singleton_self operand) context
      exact ⟨_, (evaluate_negate_eq_ok tree operand context _).mpr ⟨found, hfound, rfl⟩⟩

end Evaluation

namespace Compiled

theorem ofSource_eq_ok (resolver : Resolver) (source : String) (compiled : Compiled) :
    ofSource resolver source = .ok compiled ↔
      ∃ e bound, Expr.parse source = .ok e ∧ e.bind resolver Registry.core = .ok bound ∧
        compiled = ⟨source, bound⟩ := by
  rw [ofSource]
  exact bind_bind_eq_ok

theorem evaluateNodes_eq_ok (compiled : Compiled) (tree : Tree) (node : Address)
    (nodes : List Address) :
    compiled.evaluateNodes tree node = .ok nodes ↔
      compiled.evaluate tree node = .ok (.nodes nodes) := by
  rw [evaluateNodes, bind_eq_ok]
  constructor
  · intro h
    obtain ⟨value, hvalue, hnodes⟩ := h
    cases value with
    | nodes found =>
      obtain rfl := Except.ok.inj hnodes
      exact hvalue
    | scalar s => cases hnodes
  · intro h
    exact ⟨.nodes nodes, h, rfl⟩

/-- When there is a value, asking for its nodes fails just for a value of another type. -/
theorem evaluateNodes_fails_iff (compiled : Compiled) (tree : Tree) (node : Address)
    (value : Value) (h : compiled.evaluate tree node = .ok value) :
    (∃ error, compiled.evaluateNodes tree node = .error error) ↔ value.type ≠ .nodeSet := by
  have hnodes : compiled.evaluateNodes tree node = compiled.requireNodes value := by
    rw [evaluateNodes, h]
    rfl
  rw [hnodes]
  cases value with
  | nodes addresses => simp [requireNodes, Value.type]
  | scalar s => cases s <;> simp [requireNodes, Value.type, Scalar.type]

/-- A compiled expression that is well-typed has a value of its static type at every node
of every tree. Of one that is not, any value it has still has the static type, so its
nodes can be asked for just when that is the type of node-sets. -/
theorem evaluate_type_sound (resolver : Resolver) (source : String) (compiled : Compiled)
    (hcompiled : ofSource resolver source = .ok compiled) (tree : Tree) (node : Address) :
    (compiled.expr.WellTyped → ∃ value, compiled.evaluate tree node = .ok value ∧
      value.type = compiled.expr.staticType) ∧
    ∀ value, compiled.evaluate tree node = .ok value →
      value.type = compiled.expr.staticType ∧
      ((∃ error, compiled.evaluateNodes tree node = .error error) ↔
        compiled.expr.staticType ≠ .nodeSet) := by
  constructor
  · intro htyped
    obtain ⟨e, bound, _, hbind, rfl⟩ := (ofSource_eq_ok resolver source compiled).mp hcompiled
    have haccepted := e.everywhere_callAccepted_of_bind resolver Registry.core bound hbind
    obtain ⟨value, hvalue⟩ := evaluate_total tree bound htyped haccepted (.ofNode node)
    exact ⟨value, hvalue, evaluate_type tree bound (.ofNode node) value hvalue⟩
  · intro value hvalue
    have htype := evaluate_type tree compiled.expr (.ofNode node) value hvalue
    refine ⟨htype, ?_⟩
    rw [evaluateNodes_fails_iff compiled tree node value hvalue, htype]

/-- The union of a node and its parent is well-typed and has a value. -/
theorem evaluate_type_sound_union :
    ∃ compiled, ofSource (fun _ => none) "..|." = .ok compiled ∧ compiled.expr.WellTyped ∧
      ∃ value, compiled.evaluate (.node ⟨.root, none, none, "", []⟩ [] []) [] = .ok value ∧
        value.type = .nodeSet := by
  have hcompiled : ofSource (fun _ => none) "..|." =
      .ok ⟨"..|.", .binary .union (.path .context [.step .parent .node []])
        (.path .context [.step .self .node []])⟩ := rfl
  have hstep : ∀ axis, (Expr.path .context [.step axis .node []]).WellTyped := by
    intro axis
    rw [Expr.WellTyped, Expr.everywhere_iff]
    exact ⟨trivial, fun part hpart => by cases hpart⟩
  have htyped : (Expr.binary .union (.path .context [.step .parent .node []])
      (.path .context [.step .self .node []])).WellTyped := by
    rw [Expr.WellTyped, Expr.everywhere_iff]
    refine ⟨⟨rfl, rfl⟩, fun part hpart => ?_⟩
    simp only [Expr.parts, List.mem_cons, List.not_mem_nil, or_false] at hpart
    rcases hpart with rfl | rfl
    · exact hstep .parent
    · exact hstep .self
  obtain ⟨htotal, _⟩ := evaluate_type_sound (fun _ => none) "..|." _ hcompiled
    (.node ⟨.root, none, none, "", []⟩ [] []) []
  exact ⟨_, hcompiled, htyped, htotal htyped⟩

end Compiled

end XPathQuery
