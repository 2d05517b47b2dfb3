import XPathQuery.Tree.Handle
import XPathQuery.Proofs.CollectedNodes
import XPathQuery.Proofs.NodeSetOrder

/-!
The order of handles. A handle belongs to a number, that of its node or of the element it
is an attribute of, and has a place there: the node is first, its attributes follow by
index. Handles compare by number, then by place, which makes their order linear, with
the equality of handles for its equality. A list that is sorted and cleared of repeated
neighbours is strictly ascending and holds each handle of the list once.
-/
namespace XPathQuery

namespace Handle

def owner : Handle → Nat
  | .node id => id
  | .attribute element _ => element

def place : Handle → Nat
  | .node _ => 0
  | .attribute _ index => index + 1

theorem eq_of_owner_of_place {a b : Handle} (howner : a.owner = b.owner)
    (hplace : a.place = b.place) : a = b := by
  rcases a with a | ⟨e, i⟩ <;> rcases b with b | ⟨f, j⟩
  · exact congrArg Handle.node howner
  · cases hplace
  · cases hplace
  · exact congrArg₂ Handle.attribute howner (Nat.succ.inj hplace)

/-- The four cases of the comparison are one lexicographic comparison. -/
theorem order_eq_then (a b : Handle) :
    a.order b = (compare a.owner b.owner).then (compare a.place b.place) := by
  rcases a with a | ⟨e, i⟩ <;> rcases b with b | ⟨f, j⟩
  · simp only [order, owner, place]
    cases compare a b <;> rfl
  · rcases Nat.lt_trichotomy a f with h | rfl | h
    · simp [order, owner, place, Nat.compare_eq_lt.mpr h, h.le]
    · simp [order, owner, place, Nat.compare_eq_lt.mpr j.succ_pos]
    · simp [order, owner, place, Nat.compare_eq_gt.mpr h, h]
  · rcases Nat.lt_trichotomy e b with h | rfl | h
    · simp [order, owner, place, Nat.compare_eq_lt.mpr h, h]
    · simp [order, owner, place, Nat.compare_eq_gt.mpr i.succ_pos]
    · simp [order, owner, place, Nat.compare_eq_gt.mpr h, h.le]
  · simp only [order, owner, place]
    congr 1
    simp only [Nat.compare_eq_ite_lt, Nat.succ_lt_succ_iff]

theorem order_eq_compareLex : order = compareLex (compareOn owner) (compareOn place) := by
  funext a b
  exact order_eq_then a b

instance : Std.TransCmp order := by
  rw [order_eq_compareLex]
  infer_instance

instance : Std.LawfulEqCmp order where
  eq_of_compare := by
    intro a b h
    rw [order_eq_then, Ordering.then_eq_eq, Nat.compare_eq_eq, Nat.compare_eq_eq] at h
    exact eq_of_owner_of_place h.1 h.2

theorem order_eq_lt_iff (a b : Handle) :
    a.order b = .lt ↔ a.owner < b.owner ∨ a.owner = b.owner ∧ a.place < b.place := by
  rw [order_eq_then, Ordering.then_eq_lt, Nat.compare_eq_lt, Nat.compare_eq_lt, Nat.compare_eq_eq]

theorem order_swap (a b : Handle) : b.order a = (a.order b).swap := Std.OrientedCmp.eq_swap

theorem order_trans {a b c : Handle} (hab : a.order b = .lt) (hbc : b.order c = .lt) :
    a.order c = .lt := Std.TransCmp.lt_trans hab hbc

theorem same_iff_eq (a b : Handle) : a.same b = true ↔ a = b := by
  rcases a with a | ⟨e, i⟩ <;> rcases b with b | ⟨f, j⟩ <;> simp [same]

theorem order_eq_eq_iff_same (a b : Handle) : a.order b = .eq ↔ a.same b = true := by
  rw [same_iff_eq]
  exact Std.LawfulEqCmp.compare_eq_iff_eq

theorem same_equivalence : Equivalence fun a b : Handle => a.same b = true := by
  simp only [same_iff_eq]
  exact eq_equivalence

theorem hashed_of_same {a b : Handle} (h : a.same b = true) : a.hashed = b.hashed :=
  congrArg hashed ((same_iff_eq a b).mp h)

theorem order_total {a b : Handle} (h : a.same b = false) :
    a.order b = .lt ∨ b.order a = .lt := by
  cases horder : a.order b with
  | lt => exact Or.inl rfl
  | eq =>
    rw [(order_eq_eq_iff_same a b).mp horder] at h
    cases h
  | gt =>
    rw [order_swap, horder]
    exact Or.inr rfl

def Ascending (handles : List Handle) : Prop := handles.Pairwise fun a b => a.order b = .lt

theorem Ascending.nodup {handles : List Handle} (h : Ascending handles) : handles.Nodup :=
  NodeList.Increasing.nodup h

theorem Ascending.eq_of_mem_iff {handles others : List Handle} (h : Ascending handles)
    (hothers : Ascending others) (hmem : ∀ a, a ∈ handles ↔ a ∈ others) : handles = others :=
  NodeList.Increasing.eq_of_mem_iff h hothers hmem

instance : DecidableEq Handle := fun a b => decidable_of_iff _ (same_iff_eq a b)

theorem cons_distinctAfter (last : Handle) (handles : List Handle) :
    last :: distinctAfter last handles = handles.destutter' (· ≠ ·) last := by
  induction handles generalizing last with
  | nil => rfl
  | cons a rest ih =>
    rw [distinctAfter, List.destutter'_cons]
    by_cases h : last = a
    · rw [if_pos ((same_iff_eq last a).mpr h), if_neg (not_not_intro h), ih]
    · rw [if_neg (mt (same_iff_eq last a).mp h), if_pos h, ih]

/-- A list that is sorted and cleared of repetitions is the union of the list with nothing. -/
theorem distinct_sorted_eq_merged (handles : List Handle) :
    distinct (sorted handles) = NodeList.merged order handles [] := by
  have hdistinct : ∀ sorted : List Handle, distinct sorted = sorted.destutter (· ≠ ·) := by
    intro sorted
    cases sorted with
    | nil => rfl
    | cons a rest => exact cons_distinctAfter a rest
  rw [NodeList.merged, List.append_nil, hdistinct]
  rfl

theorem ascending_distinct_sorted (handles : List Handle) :
    Ascending (distinct (sorted handles)) := by
  rw [distinct_sorted_eq_merged]
  exact NodeList.increasing_merged handles []

theorem mem_distinct_sorted {a : Handle} {handles : List Handle} :
    a ∈ distinct (sorted handles) ↔ a ∈ handles := by
  rw [distinct_sorted_eq_merged, NodeList.mem_merged, or_iff_left List.not_mem_nil]

end Handle

end XPathQuery
