import XPathQuery.Proofs.EvaluationOrder

/-!
The contexts met during an evaluation. Most parts of an expression are evaluated in the
context of the whole, but a predicate is evaluated at each node it may leave out. From a
node of a well-formed tree evaluation only comes to nodes of the tree. Hence all
node-sets met on the way, in predicates and arguments too, are listed in document order.
-/
namespace XPathQuery

/-- Among the evaluations that narrow some nodes is that of `predicate` in `context`. The
predicates before it have left `kept`, where the context has its place. -/
def EvaluatesPredicate (tree : Tree) (root : Address) (predicates : List Expr)
    (nodes : List Address) (predicate : Expr) (context : Context) : Prop :=
  ∃ before after kept i node, predicates = before ++ predicate :: after ∧
    narrow tree before root nodes = .ok kept ∧ kept[i]? = some node ∧
    context = ⟨node, root, i + 1, kept.length⟩

/-- The evaluation of an expression may come to that of a part of it, in a context of its
own. Operands left alone by a disjunction or a conjunction count as well. -/
inductive EvaluatesPart (tree : Tree) : Expr × Context → Expr × Context → Prop
  | start {e : Expr} {steps : List Step} {context : Context} :
      EvaluatesPart tree (.path (.expr e) steps, context) (e, context)
  | stepPredicate {start : PathStart} {before after : List Step} {axis : Axis}
      {test : NodeTest} {predicates : List Expr} {context other : Context}
      {starts : List Address} {n m : Address} {predicate : Expr}
      (hstarts : StartsAt tree context start starts) (hn : n ∈ starts)
      (hm : Leads tree context.root before n m)
      (hpredicate : EvaluatesPredicate tree context.root predicates
        (tree.stepNodes axis test m) predicate other) :
      EvaluatesPart tree (.path start (before ++ .step axis test predicates :: after), context)
        (predicate, other)
  | base {e : Expr} {predicates : List Expr} {context : Context} :
      EvaluatesPart tree (.filter e predicates, context) (e, context)
  | predicate {e : Expr} {predicates : List Expr} {context other : Context}
      {found : List Address} {predicate : Expr}
      (hfound : evaluate tree e context = .ok (.nodes found))
      (hpredicate : EvaluatesPredicate tree context.root predicates found predicate other) :
      EvaluatesPart tree (.filter e predicates, context) (predicate, other)
  | argument {function : String} {arguments : List Expr} {context : Context} {e : Expr}
      (h : e ∈ arguments) : EvaluatesPart tree (.call function arguments, context) (e, context)
  | left {operator : Operator} {left right : Expr} {context : Context} :
      EvaluatesPart tree (.binary operator left right, context) (left, context)
  | right {operator : Operator} {left right : Expr} {context : Context} :
      EvaluatesPart tree (.binary operator left right, context) (right, context)
  | operand {e : Expr} {context : Context} :
      EvaluatesPart tree (.negate e, context) (e, context)

def Evaluates (tree : Tree) : Expr × Context → Expr × Context → Prop :=
  Relation.ReflTransGen (EvaluatesPart tree)

structure Context.InTree (tree : Tree) (context : Context) : Prop where
  root : context.root ∈ tree.addresses
  node : context.node ∈ tree.addresses

section WellFormed
variable {tree : Tree} (hwf : tree.WellFormed)
include hwf

theorem Leads.mem_addresses {root : Address} {steps : List Step} {n m : Address}
    (h : Leads tree root steps n m) (hn : n ∈ tree.addresses) : m ∈ tree.addresses := by
  induction h with
  | nil => exact hn
  | cons hselect hnext _ ih =>
    exact ih (select_subset_addresses tree hwf root _ _ hn _ hselect hnext)

theorem StartsAt.subset_addresses {context : Context} (hcontext : context.InTree tree)
    (start : PathStart) (starts : List Address) (h : StartsAt tree context start starts) :
    starts ⊆ tree.addresses := by
  cases start with
  | root =>
    obtain rfl : starts = [context.root] := h
    exact List.cons_subset.mpr ⟨hcontext.root, List.nil_subset _⟩
  | context =>
    obtain rfl : starts = [context.node] := h
    exact List.cons_subset.mpr ⟨hcontext.node, List.nil_subset _⟩
  | expr e =>
    exact evaluate_subset_addresses tree hwf e context hcontext.root hcontext.node starts h

omit hwf in
theorem EvaluatesPredicate.inTree {root : Address} {predicates : List Expr}
    {nodes : List Address} {predicate : Expr} {context : Context}
    (h : EvaluatesPredicate tree root predicates nodes predicate context)
    (hroot : root ∈ tree.addresses) (hnodes : nodes ⊆ tree.addresses) :
    context.InTree tree := by
  obtain ⟨before, after, kept, i, node, _, hkept, hi, rfl⟩ := h
  have hnode : node ∈ nodes :=
    (narrow_sublist tree before root nodes kept hkept).subset (List.mem_of_getElem? hi)
  exact ⟨hroot, hnodes hnode⟩

/-- From a context in the tree evaluation comes to contexts in the tree. -/
theorem EvaluatesPart.inTree {whole part : Expr × Context} (h : EvaluatesPart tree whole part)
    (hcontext : whole.2.InTree tree) : part.2.InTree tree := by
  cases h with
  | stepPredicate hstarts hn hm hpredicate =>
    have hstart := StartsAt.subset_addresses hwf hcontext _ _ hstarts hn
    have hreached := Leads.mem_addresses hwf hm hstart
    exact hpredicate.inTree hcontext.root
      (stepNodes_subset_addresses tree hwf _ _ _ hreached)
  | predicate hfound hpredicate =>
    exact hpredicate.inTree hcontext.root
      (evaluate_subset_addresses tree hwf _ _ hcontext.root hcontext.node _ hfound)
  | start => exact hcontext
  | base => exact hcontext
  | argument => exact hcontext
  | left => exact hcontext
  | right => exact hcontext
  | operand => exact hcontext

theorem Evaluates.inTree {whole part : Expr × Context} (h : Evaluates tree whole part)
    (hcontext : whole.2.InTree tree) : part.2.InTree tree := by
  induction h with
  | refl => exact hcontext
  | tail _ hpart ih => exact hpart.inTree hwf ih

end WellFormed

/-- Every node-set value met during an evaluation lists its nodes in document order and
none of them twice, and stands for the first of them where one node is wanted. In a
well-formed tree it is the list of all nodes with some left out. So all selections give
their matches in document order. -/
theorem evaluate_document_order :
    (∀ (tree : Tree) (e sub : Expr) (context other : Context),
      Evaluates tree (e, context) (sub, other) → ∀ nodes,
      evaluate tree sub other = .ok (.nodes nodes) →
        NodeSet.Ascending nodes ∧ nodes.Nodup ∧
        (tree.WellFormed → context.InTree tree → nodes.Sublist tree.addresses) ∧
        (nodes ≠ [] → ∃ first, NodeSet.IsFirst nodes first ∧
          (Value.nodes nodes).toText tree = tree.stringValueOf first ∧
          (Value.nodes nodes).toNumber tree = Text.toNumber (tree.stringValueOf first).toList ∧
          ∀ (f : CoreFunction) place rest,
            f.chosenNode place (.nodes nodes :: rest) = .ok (some first))) ∧
    (∀ (compiled : Compiled) tree node nodes, compiled.evaluateNodes tree node = .ok nodes →
      NodeSet.Ascending nodes ∧ nodes.Nodup) ∧
    ∀ (selection : Selection) nodes, selection.nodes = .ok nodes →
      NodeSet.Ascending nodes ∧ nodes.Nodup ∧
      (∀ n, selection.first? = .ok (some n) ↔ NodeSet.IsFirst nodes n) ∧
      (∀ text, selection.firstText? = .ok (some text) ↔
        ∃ n, NodeSet.IsFirst nodes n ∧ text = selection.tree.stringValueOf n) ∧
      selection.texts = .ok (nodes.map selection.tree.stringValueOf) ∧
      selection.cursor = .ok (.ofList nodes) := by
  refine ⟨?_, ?_, ?_⟩
  · intro tree e sub context other hsub nodes h
    have hasc := evaluate_ascending tree sub other nodes h
    refine ⟨hasc, hasc.nodup, fun hwf hcontext => ?_, fun hne => ?_⟩
    · have hother : other.InTree tree := hsub.inTree hwf hcontext
      exact evaluate_sublist_addresses tree hwf sub other hother.root hother.node nodes h
    · have hfirst := (hasc.head?_eq_some_iff _).mp (List.head?_eq_some_head hne)
      exact ⟨nodes.head hne, hfirst, convert_of_isFirst tree nodes hasc _ hfirst⟩
  · intro compiled tree node nodes h
    have hasc := compiled.evaluateNodes_ascending tree node nodes h
    exact ⟨hasc, hasc.nodup⟩
  · intro selection nodes h
    obtain ⟨compiled, hcompiled⟩ := selection.exists_compiled_of_nodes_eq_ok nodes h
    have hasc := compiled.evaluateNodes_ascending selection.tree selection.node nodes hcompiled
    refine ⟨hasc, hasc.nodup, selection.first?_eq_ok_iff nodes h, ?_, ?_, ?_⟩
    · intro text
      have hfirst : selection.firstText? =
          .ok (nodes.head?.map selection.tree.stringValueOf) := by
        rw [Selection.firstText?, Selection.first?, h]
        rfl
      rw [hfirst, Except.ok.injEq, Option.map_eq_some_iff]
      simp only [hasc.head?_eq_some_iff, eq_comm (a := text)]
    · rw [Selection.texts, h]
      rfl
    · rw [Selection.cursor, h]
      rfl

end XPathQuery
