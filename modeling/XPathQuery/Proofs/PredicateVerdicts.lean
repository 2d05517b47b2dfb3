import XPathQuery.Proofs.ComparedResults
import XPathQuery.Proofs.StaticTypes

/-!
Predicates that look at a node alone. A predicate with a number for its value asks for a
place, and other predicates may ask for the place of the node as well. One that does neither
comes to the same verdict at a node wherever the node stands. Narrowing by such predicates
needs a verdict on every node and leaves those for which it is favourable, in any list.
-/
namespace XPathQuery

structure Context.Placed (among : List Address) (root : Address) (context : Context) : Prop where
  root : context.root = root
  node : context.node ∈ among
  position_pos : 0 < context.position
  position_le : context.position ≤ context.size

namespace Expr
variable (tree : Tree) (among : List Address) (root : Address)

def NeverNumber (e : Expr) : Prop :=
  ∀ context : Context, context.Placed among root → ∀ value,
    evaluate tree e context = .ok value → value.type ≠ .number

def AlwaysNumber (e : Expr) : Prop :=
  ∀ context : Context, context.Placed among root → ∀ value,
    evaluate tree e context = .ok value → value.type = .number

/-- At each of the nodes, all places and numbers of places give the same value, or all fail. -/
def IgnoresPlace (e : Expr) : Prop :=
  ∀ context context' : Context, context.Placed among root → context'.Placed among root →
    context.node = context'.node → SameResult (evaluate tree e context) (evaluate tree e context')

def verdict (e : Expr) (node : Address) : Option Bool :=
  (evaluate tree e ⟨node, root, 1, 1⟩).toOption.map Value.toBool

def verdictOfAll : List Expr → Address → Option Bool
  | [], _ => some true
  | e :: rest, node =>
      (e.verdict tree root node).bind fun holds =>
        if holds then verdictOfAll rest node else some false

/-- The type of an expression tells whether it can be a number. -/
theorem neverNumber_of_staticType (e : Expr) (h : e.staticType ≠ .number) :
    e.NeverNumber tree among root := by
  intro context _ value hvalue
  rw [evaluate_type tree e context value hvalue]
  exact h

theorem alwaysNumber_of_staticType (e : Expr) (h : e.staticType = .number) :
    e.AlwaysNumber tree among root := by
  intro context _ value hvalue
  rw [evaluate_type tree e context value hvalue]
  exact h

/-- A path from the context node only sees the node. -/
theorem ignoresPlace_path_context (steps : List Step) :
    (path .context steps).IgnoresPlace tree among root := by
  intro context context' hplaced hplaced' hnode
  have hroot : context.root = context'.root := hplaced.root.trans hplaced'.root.symm
  rw [evaluate, evaluate, startNodes_context, startNodes_context, hnode, hroot]
  exact SameResult.refl _

end Expr

namespace Value

theorem keeps_of_type_ne {value : Value} (h : value.type ≠ .number) (position : Nat) :
    value.keeps position = value.toBool := by
  cases value with
  | nodes addresses => rfl
  | scalar s =>
    cases s with
    | number n => exact absurd rfl h
    | string text => rfl
    | boolean truth => rfl

@[simp]
theorem keeps_boolean (truth : Bool) (position : Nat) :
    (boolean truth).keeps position = truth := rfl

end Value

section Verdicts
variable {tree : Tree} {among : List Address} {root : Address}

/-- The verdict on a node is the truth of the value that the predicate has at any place. -/
theorem Expr.IgnoresPlace.verdict_eq_some_iff {e : Expr} (h : e.IgnoresPlace tree among root)
    {context : Context} (hplaced : context.Placed among root) (holds : Bool) :
    e.verdict tree root context.node = some holds ↔
      ∃ value, evaluate tree e context = .ok value ∧ value.toBool = holds := by
  have hsame := h ⟨context.node, root, 1, 1⟩ context
    ⟨rfl, hplaced.node, Nat.one_pos, Nat.le_refl 1⟩ hplaced rfl
  simp only [verdict, Option.map_eq_some_iff, toOption_eq_some_iff, hsame _]

def Selected (verdict : Address → Option Bool) (nodes kept : List Address) : Prop :=
  (∀ n ∈ nodes, (verdict n).isSome = true) ∧ kept = nodes.filter fun n => verdict n = some true

theorem selected_nil (verdict : Address → Option Bool) (kept : List Address) :
    Selected verdict [] kept ↔ kept = [] := by
  simp [Selected]

theorem selected_cons (verdict : Address → Option Bool) (node : Address)
    (rest kept : List Address) :
    Selected verdict (node :: rest) kept ↔
      ∃ holds others, verdict node = some holds ∧ Selected verdict rest others ∧
        kept = if holds then node :: others else others := by
  simp only [Selected, List.forall_mem_cons, List.filter_cons]
  constructor
  · intro h
    obtain ⟨⟨hnode, hrest⟩, hkept⟩ := h
    obtain ⟨holds, hnode⟩ := Option.isSome_iff_exists.mp hnode
    refine ⟨holds, _, hnode, ⟨hrest, rfl⟩, ?_⟩
    rw [hkept, hnode]
    cases holds <;> simp
  · intro h
    obtain ⟨holds, others, hnode, ⟨hrest, rfl⟩, hkept⟩ := h
    refine ⟨⟨by rw [hnode]; rfl, hrest⟩, ?_⟩
    rw [hkept, hnode]
    cases holds <;> simp

/-- Numbering the nodes does not matter to a predicate that is no number and ignores it. -/
theorem keepNodes_eq_ok_iff_selected {e : Expr} (hnever : e.NeverNumber tree among root)
    (hignores : e.IgnoresPlace tree among root) (size position : Nat) (nodes kept : List Address)
    (hnodes : nodes ⊆ among) (hpos : 0 < position)
    (hsize : position + nodes.length ≤ size + 1) :
    keepNodes (fun context => evaluate tree e context) root size position nodes = .ok kept ↔
      Selected (e.verdict tree root) nodes kept := by
  induction nodes generalizing position kept with
  | nil => simp [keepNodes, selected_nil, eq_comm]
  | cons node rest ih =>
    obtain ⟨hnode, hrest⟩ := List.cons_subset.mp hnodes
    rw [List.length_cons] at hsize
    have hplaced : Context.Placed among root ⟨node, root, position, size⟩ :=
      ⟨rfl, hnode, hpos, by simp only; omega⟩
    have hverdict := hignores.verdict_eq_some_iff hplaced
    simp only [keepNodes_cons_eq_ok, selected_cons, hverdict,
      ih (position + 1) _ hrest (Nat.succ_pos _) (by omega)]
    constructor
    · intro h
      obtain ⟨value, others, hvalue, hothers, rfl⟩ := h
      refine ⟨value.toBool, others, ⟨value, hvalue, rfl⟩, hothers, ?_⟩
      rw [Value.keeps_of_type_ne (hnever _ hplaced value hvalue)]
    · intro h
      obtain ⟨_, others, ⟨value, hvalue, rfl⟩, hothers, rfl⟩ := h
      refine ⟨value, others, hvalue, hothers, ?_⟩
      rw [Value.keeps_of_type_ne (hnever _ hplaced value hvalue)]

/-- Two rounds of verdicts are one, in which the second is asked for where the first is
favourable. -/
theorem selected_bind_iff (first second : Address → Option Bool) (nodes result : List Address) :
    (∃ kept, Selected first nodes kept ∧ Selected second kept result) ↔
      Selected (fun n => (first n).bind fun holds => if holds then second n else some false)
        nodes result := by
  induction nodes generalizing result with
  | nil => simp [selected_nil]
  | cons node rest ih =>
    simp only [selected_cons, Option.bind_eq_some_iff, ← ih]
    constructor
    · intro h
      obtain ⟨_, ⟨holds, others, hfirst, hothers, rfl⟩, hresult⟩ := h
      cases holds with
      | true =>
        obtain ⟨also, more, hsecond, hmore, rfl⟩ := (selected_cons _ _ _ _).mp hresult
        exact ⟨also, more, ⟨true, hfirst, hsecond⟩, ⟨others, hothers, hmore⟩, rfl⟩
      | false => exact ⟨false, result, ⟨false, hfirst, rfl⟩, ⟨others, hothers, hresult⟩, rfl⟩
    · intro h
      obtain ⟨also, more, ⟨holds, hfirst, hsecond⟩, ⟨others, hothers, hmore⟩, rfl⟩ := h
      refine ⟨_, ⟨holds, others, hfirst, hothers, rfl⟩, ?_⟩
      cases holds with
      | true => exact (selected_cons _ _ _ _).mpr ⟨also, more, hsecond, hmore, rfl⟩
      | false =>
        obtain rfl : also = false := (Option.some.inj hsecond).symm
        exact hmore

/-- Narrowing by predicates that look at the nodes alone succeeds when they come to a verdict
on every node, and leaves the nodes with a favourable one. -/
theorem narrow_eq_ok_iff_selected (predicates : List Expr)
    (hnever : ∀ p ∈ predicates, p.NeverNumber tree among root)
    (hignores : ∀ p ∈ predicates, p.IgnoresPlace tree among root) (nodes result : List Address)
    (hnodes : nodes ⊆ among) :
    narrow tree predicates root nodes = .ok result ↔
      Selected (Expr.verdictOfAll tree root predicates) nodes result := by
  induction predicates generalizing nodes with
  | nil =>
    have hall : (nodes.filter fun n => Expr.verdictOfAll tree root [] n = some true) = nodes :=
      List.filter_eq_self.mpr fun _ _ => by simp [Expr.verdictOfAll]
    rw [narrow_nil, Except.ok.injEq, Selected, hall]
    simp [Expr.verdictOfAll, eq_comm]
  | cons e rest ih =>
    obtain ⟨hnever, hnever'⟩ := List.forall_mem_cons.mp hnever
    obtain ⟨hignores, hignores'⟩ := List.forall_mem_cons.mp hignores
    have hfirst (kept : List Address) := keepNodes_eq_ok_iff_selected hnever hignores
      nodes.length 1 nodes kept hnodes Nat.one_pos (by omega)
    have hboth := selected_bind_iff (e.verdict tree root) (Expr.verdictOfAll tree root rest)
      nodes result
    rw [narrow_cons_eq_ok]
    refine Iff.trans ?_ hboth
    refine exists_congr fun kept => ?_
    rw [hfirst]
    refine and_congr_right fun hkept => ih hnever' hignores' kept ?_
    obtain ⟨_, rfl⟩ := hkept
    exact List.Subset.trans List.filter_sublist.subset hnodes

end Verdicts

end XPathQuery
