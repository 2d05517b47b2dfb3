import Mathlib.Data.List.Destutter
import Mathlib.Data.List.Sort

/-!
Two ways of collecting nodes in order, whatever nodes are, when a total order compares them
as equal exactly when they are. Two lists are joined, sorted and cleared of neighbours that
are equal; or what has been seen before is left out first and the rest is sorted. Both give
the increasing list of the nodes, which there is only one of, so lists are united without
regard to order, repetition, or how the unions are nested.
-/
namespace XPathQuery.NodeList

variable {Node : Type}

def Increasing (order : Node → Node → Ordering) (nodes : List Node) : Prop :=
  nodes.Pairwise fun a b => order a b = .lt

def sorted (order : Node → Node → Ordering) (nodes : List Node) : List Node :=
  nodes.mergeSort fun a b => (order a b).isLE

section Lists
variable [DecidableEq Node]

def merged (order : Node → Node → Ordering) (left right : List Node) : List Node :=
  (sorted order (left ++ right)).destutter (· ≠ ·)

/-- The nodes that are not among those seen already, each where it is met first. -/
def unseen (seen : List Node) : List Node → List Node
  | [] => []
  | a :: rest => if a ∈ seen then unseen seen rest else a :: unseen (a :: seen) rest

theorem mem_unseen (a : Node) (seen nodes : List Node) :
    a ∈ unseen seen nodes ↔ a ∈ nodes ∧ a ∉ seen := by
  induction nodes generalizing seen with
  | nil => simp [unseen]
  | cons b rest ih =>
    rw [unseen]
    split
    · rename_i hseen
      rw [ih, List.mem_cons]
      constructor
      · intro h
        exact ⟨Or.inr h.1, h.2⟩
      · intro h
        obtain ⟨rfl | ha, hnot⟩ := h
        · exact absurd hseen hnot
        · exact ⟨ha, hnot⟩
    · rename_i hnew
      rw [List.mem_cons, List.mem_cons, ih, List.mem_cons, not_or]
      by_cases hab : a = b
      · subst hab
        simp [hnew]
      · simp [hab]

theorem nodup_unseen (seen nodes : List Node) : (unseen seen nodes).Nodup := by
  induction nodes generalizing seen with
  | nil => exact List.nodup_nil
  | cons a rest ih =>
    rw [unseen]
    split
    · exact ih seen
    · refine List.nodup_cons.mpr ⟨fun h => ?_, ih (a :: seen)⟩
      exact ((mem_unseen a (a :: seen) rest).mp h).2 List.mem_cons_self

/-- Only which nodes have been seen matters. -/
theorem unseen_congr {seen others : List Node} (h : ∀ a, a ∈ seen ↔ a ∈ others)
    (nodes : List Node) : unseen seen nodes = unseen others nodes := by
  induction nodes generalizing seen others with
  | nil => rfl
  | cons a rest ih =>
    have hrest : unseen (a :: seen) rest = unseen (a :: others) rest :=
      ih fun b => by rw [List.mem_cons, List.mem_cons, h]
    simp only [unseen, h a, ih h, hrest]

/-- What one list shows is seen when the next one comes. -/
theorem unseen_append (seen left right : List Node) :
    unseen seen (left ++ right) =
      unseen seen left ++ unseen (unseen seen left ++ seen) right := by
  induction left generalizing seen with
  | nil => rfl
  | cons a rest ih =>
    rw [List.cons_append, unseen, unseen]
    split
    · exact ih seen
    · rw [ih, List.cons_append]
      refine congrArg (fun others => a :: (unseen (a :: seen) rest ++ others)) ?_
      exact unseen_congr (fun b => by simp [or_left_comm]) right

end Lists

structure UnionLaws (order : Node → Node → Ordering)
    (union : List Node → List Node → List Node) : Prop where
  increasing : ∀ left right, Increasing order (union left right)
  mem_iff : ∀ left right a, a ∈ union left right ↔ a ∈ left ∨ a ∈ right
  comm : ∀ left right, union left right = union right left
  assoc : ∀ first second third,
    union (union first second) third = union first (union second third)
  idem : ∀ left right, union (union left right) (union left right) = union left right

theorem mem_sorted (order : Node → Node → Ordering) (nodes : List Node) (a : Node) :
    a ∈ sorted order nodes ↔ a ∈ nodes :=
  (List.mergeSort_perm nodes _).mem_iff

theorem mem_sorted_unseen [DecidableEq Node] (order : Node → Node → Ordering) (nodes : List Node)
    (a : Node) : a ∈ sorted order (unseen [] nodes) ↔ a ∈ nodes := by
  rw [mem_sorted, mem_unseen, and_iff_left List.not_mem_nil]

theorem pairwise_sorted (order : Node → Node → Ordering) [Std.TransCmp order]
    (nodes : List Node) : (sorted order nodes).Pairwise fun a b => (order a b).isLE = true := by
  refine List.pairwise_mergeSort ?_ ?_ nodes
  · intro a b c hab hbc
    exact Std.TransCmp.isLE_trans hab hbc
  · intro a b
    have hswap : order b a = (order a b).swap := Std.OrientedCmp.eq_swap
    rw [hswap]
    cases order a b <;> rfl

section Equality
variable {order : Node → Node → Ordering} [Std.LawfulEqCmp order]

instance irrefl_lt : Std.Irrefl fun a b : Node => order a b = .lt :=
  ⟨fun a haa => by
    have hself : order a a = .eq := Std.ReflCmp.compare_self
    rw [hself] at haa
    cases haa⟩

theorem Increasing.nodup {nodes : List Node} (h : Increasing order nodes) : nodes.Nodup :=
  List.Pairwise.nodup h

theorem increasing_of_nodup {nodes : List Node}
    (h : nodes.Pairwise fun a b => (order a b).isLE = true) (hnodup : nodes.Nodup) :
    Increasing order nodes := by
  refine List.Pairwise.imp ?_ (h.and hnodup)
  intro a b hab
  obtain ⟨hle, hne⟩ := hab
  cases horder : order a b with
  | lt => rfl
  | eq => exact absurd (Std.LawfulEqCmp.eq_of_compare horder) hne
  | gt =>
    rw [horder] at hle
    cases hle

end Equality

section Order
variable {order : Node → Node → Ordering} [Std.TransCmp order] [Std.LawfulEqCmp order]

instance antisymm_isLE : Std.Antisymm fun a b : Node => (order a b).isLE = true :=
  ⟨fun _ _ hab hba => Std.LawfulEqCmp.eq_of_compare (Std.OrientedCmp.isLE_antisymm hab hba)⟩

instance antisymm_lt : Std.Antisymm fun a b : Node => order a b = .lt :=
  ⟨fun a b hab hba => by
    have hswap : order b a = (order a b).swap := Std.OrientedCmp.eq_swap
    rw [hswap, hab] at hba
    cases hba⟩

/-- An increasing list is known by the nodes it holds. -/
theorem Increasing.eq_of_mem_iff {nodes others : List Node} (h : Increasing order nodes)
    (hothers : Increasing order others) (hmem : ∀ a, a ∈ nodes ↔ a ∈ others) : nodes = others :=
  List.Pairwise.eq_of_mem_iff h hothers hmem

/-- Whatever lists the nodes of both lists in ascending order is their union. -/
theorem unionLaws_of_mem_iff {union : List Node → List Node → List Node}
    (hincreasing : ∀ left right, Increasing order (union left right))
    (hmem : ∀ left right a, a ∈ union left right ↔ a ∈ left ∨ a ∈ right) :
    UnionLaws order union where
  increasing := hincreasing
  mem_iff := hmem
  comm left right := by
    refine (hincreasing left right).eq_of_mem_iff (hincreasing right left) fun a => ?_
    rw [hmem, hmem, or_comm]
  assoc first second third := by
    refine (hincreasing _ _).eq_of_mem_iff (hincreasing _ _) fun a => ?_
    rw [hmem, hmem, hmem, hmem, or_assoc]
  idem left right := by
    refine (hincreasing _ _).eq_of_mem_iff (hincreasing left right) fun a => ?_
    rw [hmem, or_self]

variable [DecidableEq Node]

theorem increasing_merged (left right : List Node) :
    Increasing order (merged order left right) := by
  have hsorted := pairwise_sorted order (left ++ right)
  rw [merged, hsorted.destutter_eq_dedup]
  exact increasing_of_nodup (hsorted.sublist (List.dedup_sublist _)) (List.nodup_dedup _)

theorem mem_merged (left right : List Node) (a : Node) :
    a ∈ merged order left right ↔ a ∈ left ∨ a ∈ right := by
  rw [merged, (pairwise_sorted order (left ++ right)).destutter_eq_dedup, List.mem_dedup,
    mem_sorted, List.mem_append]

theorem unionLaws_merged : UnionLaws order (merged order) :=
  unionLaws_of_mem_iff increasing_merged mem_merged

theorem increasing_sorted_unseen (nodes : List Node) :
    Increasing order (sorted order (unseen [] nodes)) := by
  refine increasing_of_nodup (pairwise_sorted order _) ?_
  exact (List.mergeSort_perm _ _).nodup_iff.mpr (nodup_unseen [] nodes)

/-- Clearing before sorting and after it give one list. -/
theorem sorted_unseen_append (left right : List Node) :
    sorted order (unseen [] (left ++ right)) = merged order left right := by
  refine (increasing_sorted_unseen _).eq_of_mem_iff (increasing_merged left right) fun a => ?_
  rw [mem_sorted_unseen, mem_merged, List.mem_append]

end Order

end XPathQuery.NodeList
