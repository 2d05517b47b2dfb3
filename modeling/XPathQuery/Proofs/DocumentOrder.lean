import XPathQuery.Tree.Order
import Mathlib.Data.List.Induction

/-!
Document order as an order. It is a strict linear order on addresses, and one node
precedes another exactly when the other lies below it or branches off to its right.
The list of all addresses of a tree is strictly ascending and holds the addresses
that can be looked up.
-/
namespace XPathQuery

namespace Branch

theorem lt_irrefl (b : Branch) : ¬ b < b := by
  rcases b with i | i
  · exact Nat.lt_irrefl i
  · exact Nat.lt_irrefl i

theorem lt_trans {a b c : Branch} (hab : a < b) (hbc : b < c) : a < c := by
  rcases a with i | i <;> rcases b with j | j <;> rcases c with k | k
  all_goals first
    | exact Nat.lt_trans hab hbc
    | exact trivial
    | exact False.elim hab
    | exact False.elim hbc

theorem lt_or_eq_or_gt (a b : Branch) : a < b ∨ a = b ∨ b < a := by
  rcases a with i | i <;> rcases b with j | j
  · rcases Nat.lt_trichotomy i j with h | h | h
    · exact Or.inl h
    · exact Or.inr (Or.inl (congrArg Branch.attribute h))
    · exact Or.inr (Or.inr h)
  · exact Or.inl trivial
  · exact Or.inr (Or.inr trivial)
  · rcases Nat.lt_trichotomy i j with h | h | h
    · exact Or.inl h
    · exact Or.inr (Or.inl (congrArg Branch.child h))
    · exact Or.inr (Or.inr h)

theorem attribute_lt_child (i j : Nat) : Branch.attribute i < Branch.child j := trivial

theorem not_child_lt_attribute (i j : Nat) : ¬ Branch.child i < Branch.attribute j := id

instance : Std.Irrefl (· < · : Branch → Branch → Prop) := ⟨lt_irrefl⟩

instance : Trans (· < · : Branch → Branch → Prop) (· < ·) (· < ·) := ⟨lt_trans⟩

def isChild : Branch → Bool
  | .attribute _ => false
  | .child _ => true

end Branch

namespace Address

theorem parent?_eq_some_iff (a p : Address) : a.parent? = some p ↔ ∃ b, a = b :: p := by
  cases a <;> simp [parent?]

/-- `b` lies below `a`, at any depth. -/
def Below (a b : Address) : Prop := ∃ r, r ≠ [] ∧ b = r ++ a

theorem below_append_cons (r : List Branch) (b : Branch) (a : Address) :
    Below a (r ++ b :: a) := ⟨r ++ [b], by simp, by simp⟩

/-- Under a common node, the branch that leads to `a` comes before the one to `b`. -/
def LeftOf (a b : Address) : Prop :=
  ∃ base x y r s, x < y ∧ a = r ++ x :: base ∧ b = s ++ y :: base

theorem below_trans {a b c : Address} (hab : Below a b) (hbc : Below b c) : Below a c := by
  obtain ⟨r, hr, rfl⟩ := hab
  obtain ⟨s, _, rfl⟩ := hbc
  exact ⟨s ++ r, by simp [hr], by simp⟩

theorem exists_of_below {a b : Address} (h : Below a b) :
    ∃ r x, b = r ++ x :: a := by
  obtain ⟨r, hr, rfl⟩ := h
  rcases List.eq_nil_or_concat r with rfl | ⟨r, x, rfl⟩
  · exact absurd rfl hr
  · exact ⟨r, x, by simp⟩

/-- What branches off from a node branches off from everything below it. -/
theorem leftOf_append {a b : List Branch} (r s : List Branch) (h : LeftOf a b) :
    LeftOf (r ++ a) (s ++ b) := by
  obtain ⟨base, x, y, u, v, hxy, rfl, rfl⟩ := h
  exact ⟨base, x, y, r ++ u, s ++ v, hxy, by simp, by simp⟩

theorem not_nil_leftOf (m : Address) : ¬ LeftOf [] m := by
  intro h
  obtain ⟨base, x, y, r, s, _, h, _⟩ := h
  simp at h

theorem not_leftOf_nil (m : Address) : ¬ LeftOf m [] := by
  intro h
  obtain ⟨base, x, y, r, s, _, _, h⟩ := h
  simp at h

theorem leftOf_cons (b : Branch) (p m : Address) :
    LeftOf (b :: p) m ↔ LeftOf p m ∨ ∃ y s, b < y ∧ m = s ++ y :: p := by
  constructor
  · intro h
    obtain ⟨base, x, y, r, s, hxy, hr, rfl⟩ := h
    cases r with
    | nil =>
      obtain ⟨rfl, rfl⟩ := List.cons.inj hr
      exact Or.inr ⟨y, s, hxy, rfl⟩
    | cons c r =>
      obtain ⟨_, rfl⟩ := List.cons.inj hr
      exact Or.inl ⟨base, x, y, r, s, hxy, rfl, rfl⟩
  · intro h
    rcases h with h | ⟨y, s, hby, rfl⟩
    · exact leftOf_append [b] [] h
    · exact ⟨p, b, y, [], s, hby, rfl, rfl⟩

theorem cons_leftOf (b : Branch) (p m : Address) :
    LeftOf m (b :: p) ↔ LeftOf m p ∨ ∃ y s, y < b ∧ m = s ++ y :: p := by
  constructor
  · intro h
    obtain ⟨base, x, y, r, s, hxy, rfl, hs⟩ := h
    cases s with
    | nil =>
      obtain ⟨rfl, rfl⟩ := List.cons.inj hs
      exact Or.inr ⟨x, r, hxy, rfl⟩
    | cons c s =>
      obtain ⟨_, rfl⟩ := List.cons.inj hs
      exact Or.inl ⟨base, x, y, r, s, hxy, rfl, rfl⟩
  · intro h
    rcases h with h | ⟨y, s, hyb, rfl⟩
    · exact leftOf_append [] [b] h
    · exact ⟨p, y, b, s, [], hyb, rfl, rfl⟩

private theorem not_append_of_fork (base : Address) (x y : Branch) (r s t : List Branch)
    (hxy : x ≠ y) : s ++ y :: base ≠ t ++ (r ++ x :: base) := by
  intro h
  have h' : s ++ [y] ++ base = t ++ r ++ [x] ++ base := by simpa using h
  have hend := List.append_cancel_right h'
  have hlast := congrArg List.getLast? hend
  simp only [List.getLast?_concat, Option.some.injEq] at hlast
  exact hxy hlast.symm

theorem not_below_of_leftOf {a b : Address} (h : LeftOf a b) : ¬ Below a b := by
  obtain ⟨base, x, y, r, s, hxy, rfl, rfl⟩ := h
  intro hbelow
  obtain ⟨t, _, ht⟩ := hbelow
  refine not_append_of_fork base x y r s t ?_ ht
  intro heq
  subst heq
  exact Branch.lt_irrefl x hxy

theorem precedes_irrefl (a : Address) : ¬ a.precedes a := List.lt_irrefl a.reverse

theorem precedes_trans {a b c : Address} (hab : a.precedes b) (hbc : b.precedes c) :
    a.precedes c := List.lt_trans hab hbc

theorem ne_of_precedes {a b : Address} (h : a.precedes b) : a ≠ b := by
  intro h
  subst h
  exact precedes_irrefl a h

theorem not_precedes_of_precedes {a b : Address} (h : a.precedes b) : ¬ b.precedes a :=
  fun h' => precedes_irrefl a (precedes_trans h h')

private theorem lt_append_of_ne_nil (l r : List Branch) (hr : r ≠ []) : l < l ++ r := by
  induction l with
  | nil =>
    cases r with
    | nil => exact absurd rfl hr
    | cons b r => exact List.nil_lt_cons b r
  | cons b l ih => exact List.cons_lt_cons_iff.mpr (Or.inr ⟨rfl, ih⟩)

private theorem append_cons_lt (l r s : List Branch) {x y : Branch} (h : x < y) :
    l ++ x :: r < l ++ y :: s := by
  induction l with
  | nil => exact List.cons_lt_cons_iff.mpr (Or.inl h)
  | cons b l ih => exact List.cons_lt_cons_iff.mpr (Or.inr ⟨rfl, ih⟩)

theorem precedes_of_below {a b : Address} (h : Below a b) : a.precedes b := by
  obtain ⟨r, hr, rfl⟩ := h
  unfold precedes
  rw [List.reverse_append]
  exact lt_append_of_ne_nil _ _ (by simpa using hr)

theorem precedes_of_leftOf {a b : Address} (h : LeftOf a b) : a.precedes b := by
  obtain ⟨base, x, y, r, s, hxy, rfl, rfl⟩ := h
  unfold precedes
  simp only [List.reverse_append, List.reverse_cons, List.append_assoc, List.singleton_append]
  exact append_cons_lt _ _ _ hxy

/-- Two nodes are the same, one lies below the other, or they branch off from each other. -/
theorem eq_or_below_or_leftOf (a b : Address) :
    a = b ∨ Below a b ∨ Below b a ∨ LeftOf a b ∨ LeftOf b a := by
  induction a using List.reverseRecOn generalizing b with
  | nil =>
    by_cases hb : b = []
    · exact Or.inl hb.symm
    · exact Or.inr (Or.inl ⟨b, hb, by simp⟩)
  | append_singleton a x ih =>
    rcases List.eq_nil_or_concat b with rfl | ⟨b, y, rfl⟩
    · exact Or.inr (Or.inr (Or.inl ⟨a ++ [x], by simp, by simp⟩))
    rcases Branch.lt_or_eq_or_gt x y with hxy | rfl | hyx
    · exact Or.inr (Or.inr (Or.inr (Or.inl ⟨[], x, y, a, b, hxy, rfl, by simp⟩)))
    · rcases ih b with rfl | ⟨r, hr, rfl⟩ | ⟨r, hr, rfl⟩ | ⟨c, v, w, r, s, h, rfl, rfl⟩ |
        ⟨c, v, w, r, s, h, rfl, rfl⟩
      · exact Or.inl (by simp)
      · exact Or.inr (Or.inl ⟨r, hr, by simp⟩)
      · exact Or.inr (Or.inr (Or.inl ⟨r, hr, by simp⟩))
      · exact Or.inr (Or.inr (Or.inr (Or.inl ⟨c ++ [x], v, w, r, s, h, by simp, by simp⟩)))
      · exact Or.inr (Or.inr (Or.inr (Or.inr ⟨c ++ [x], v, w, r, s, h, by simp, by simp⟩)))
    · exact Or.inr (Or.inr (Or.inr (Or.inr ⟨[], y, x, b, a, hyx, by simp, rfl⟩)))

theorem precedes_iff (a b : Address) : a.precedes b ↔ Below a b ∨ LeftOf a b := by
  constructor
  · intro h
    rcases eq_or_below_or_leftOf a b with rfl | hab | hba | hab | hba
    · exact absurd h (precedes_irrefl a)
    · exact Or.inl hab
    · exact absurd h (not_precedes_of_precedes (precedes_of_below hba))
    · exact Or.inr hab
    · exact absurd h (not_precedes_of_precedes (precedes_of_leftOf hba))
  · intro h
    rcases h with h | h
    · exact precedes_of_below h
    · exact precedes_of_leftOf h

theorem precedes_or_eq_or_precedes (a b : Address) : a.precedes b ∨ a = b ∨ b.precedes a := by
  rcases eq_or_below_or_leftOf a b with hab | hab | hba | hab | hba
  · exact Or.inr (Or.inl hab)
  · exact Or.inl (precedes_of_below hab)
  · exact Or.inr (Or.inr (precedes_of_below hba))
  · exact Or.inl (precedes_of_leftOf hab)
  · exact Or.inr (Or.inr (precedes_of_leftOf hba))

theorem cons_precedes_cons_iff (b c : Branch) (p : Address) :
    Address.precedes (b :: p) (c :: p) ↔ b < c := by
  constructor
  · intro h
    rcases Branch.lt_or_eq_or_gt b c with hbc | rfl | hcb
    · exact hbc
    · exact absurd h (precedes_irrefl _)
    · exact absurd h (not_precedes_of_precedes
        (precedes_of_leftOf ⟨p, c, b, [], [], hcb, rfl, rfl⟩))
  · intro h
    exact precedes_of_leftOf ⟨p, b, c, [], [], h, rfl, rfl⟩

theorem mem_ancestors (n m : Address) : m ∈ n.ancestors ↔ Below m n := by
  induction n with
  | nil =>
    simp only [ancestors, List.not_mem_nil, false_iff]
    intro h
    obtain ⟨r, hr, h⟩ := h
    exact hr (List.nil_eq_append_iff.mp h).1
  | cons b p ih =>
    rw [ancestors, List.mem_cons, ih]
    constructor
    · intro h
      rcases h with rfl | h
      · exact below_append_cons [] b m
      · exact below_trans h (below_append_cons [] b p)
    · intro h
      obtain ⟨r, hr, h⟩ := h
      cases r with
      | nil => exact absurd rfl hr
      | cons c r =>
        obtain ⟨_, rfl⟩ := List.cons.inj h
        by_cases hr : r = []
        · exact Or.inl (by simp [hr])
        · exact Or.inr ⟨r, hr, rfl⟩

/-- Ancestors are listed nearest first, against document order. -/
theorem ancestors_sorted (n : Address) :
    (n :: n.ancestors).Pairwise fun a b => b.precedes a := by
  induction n with
  | nil => exact List.pairwise_singleton _ _
  | cons b p ih =>
    refine List.Pairwise.cons ?_ ih
    intro a ha
    exact precedes_of_below ((mem_ancestors (b :: p) a).mp ha)

end Address

end XPathQuery
