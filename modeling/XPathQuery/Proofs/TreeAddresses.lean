import XPathQuery.Proofs.DocumentOrder

/-!
The addresses of a tree. An address is listed exactly when it can be looked up, and
the list of all addresses is strictly ascending: document order is the order in which
a node stands before its attributes, these before the children, and a subtree before
the next sibling. The descendants of a node are the addresses below it that are
reached by child branches alone.
-/
namespace XPathQuery

namespace Tree

/-- Induction over a tree, with the hypothesis for each attribute and each child. -/
theorem induct {P : Tree → Prop}
    (step : ∀ label attributes children, (∀ t ∈ attributes, P t) → (∀ t ∈ children, P t) →
      P (.node label attributes children)) : ∀ tree, P tree
  | .node label attributes children =>
      step label attributes children (fun t _ => induct step t) (fun t _ => induct step t)

theorem at?_append (tree : Tree) (r base : Address) :
    tree.at? (r ++ base) = (tree.at? base).bind fun t => t.at? r := by
  induction r with
  | nil => simp [at?]
  | cons b r ih =>
    rw [List.cons_append, at?, ih, Option.bind_assoc]
    rfl

theorem at?_concat (tree : Tree) (r : Address) (b : Branch) :
    tree.at? (r ++ [b]) = (tree.branch? b).bind fun t => t.at? r := by
  rw [at?_append]
  rfl

/-- A node that exists has a parent that exists. -/
theorem at?_of_cons (tree t : Tree) (b : Branch) (base : Address)
    (h : tree.at? (b :: base) = some t) :
    ∃ p, tree.at? base = some p ∧ p.branch? b = some t := by
  simpa [at?, Option.bind_eq_some_iff] using h

theorem mem_addressesFromList (a base : Address) (branch : Nat → Branch) (i : Nat)
    (ts : List Tree) :
    a ∈ addressesFromList base branch i ts ↔
      ∃ j t, ts[j]? = some t ∧ a ∈ addressesFrom (branch (i + j) :: base) t := by
  induction ts generalizing i with
  | nil => simp [addressesFromList]
  | cons t ts ih =>
    rw [addressesFromList, List.mem_append, ih]
    constructor
    · intro h
      rcases h with h | ⟨j, u, hu, h⟩
      · exact ⟨0, t, rfl, h⟩
      · exact ⟨j + 1, u, hu, by simpa only [Nat.add_assoc, Nat.add_comm 1 j] using h⟩
    · intro h
      obtain ⟨j, u, hu, h⟩ := h
      cases j with
      | zero =>
        obtain rfl : t = u := Option.some.inj hu
        exact Or.inl h
      | succ j =>
        exact Or.inr ⟨j, u, hu, by simpa only [Nat.add_assoc, Nat.add_comm 1 j] using h⟩

theorem mem_descendantsFromList (a base : Address) (i : Nat) (ts : List Tree) :
    a ∈ descendantsFromList base i ts ↔
      ∃ j t, ts[j]? = some t ∧
        (a = .child (i + j) :: base ∨ a ∈ descendantsFrom (.child (i + j) :: base) t) := by
  induction ts generalizing i with
  | nil => simp [descendantsFromList]
  | cons t ts ih =>
    rw [descendantsFromList, List.mem_cons, List.mem_append, ih]
    constructor
    · intro h
      rcases h with h | h | ⟨j, u, hu, h⟩
      · exact ⟨0, t, rfl, Or.inl h⟩
      · exact ⟨0, t, rfl, Or.inr h⟩
      · exact ⟨j + 1, u, hu, by simpa only [Nat.add_assoc, Nat.add_comm 1 j] using h⟩
    · intro h
      obtain ⟨j, u, hu, h⟩ := h
      cases j with
      | zero =>
        obtain rfl : t = u := Option.some.inj hu
        rcases h with h | h
        · exact Or.inl h
        · exact Or.inr (Or.inl h)
      | succ j =>
        exact Or.inr (Or.inr ⟨j, u, hu, by
          simpa only [Nat.add_assoc, Nat.add_comm 1 j] using h⟩)

/-- The addresses listed from a node on are those that lead to something below it. -/
theorem mem_addressesFrom (a base : Address) (tree : Tree) :
    a ∈ addressesFrom base tree ↔ ∃ r t, a = r ++ base ∧ tree.at? r = some t := by
  induction tree using induct generalizing a base with
  | step label attributes children hattributes hchildren =>
    rw [addressesFrom, List.mem_cons, List.mem_append, mem_addressesFromList,
      mem_addressesFromList]
    constructor
    · intro h
      rcases h with rfl | ⟨j, t, ht, h⟩ | ⟨j, t, ht, h⟩
      · exact ⟨[], _, rfl, rfl⟩
      · obtain ⟨r, u, rfl, hu⟩ := (hattributes t (List.mem_of_getElem? ht) _ _).mp h
        refine ⟨r ++ [.attribute j], u, by simp, ?_⟩
        simpa [at?_concat, branch?, Tree.attributes, ht] using hu
      · obtain ⟨r, u, rfl, hu⟩ := (hchildren t (List.mem_of_getElem? ht) _ _).mp h
        refine ⟨r ++ [.child j], u, by simp, ?_⟩
        simpa [at?_concat, branch?, Tree.children, ht] using hu
    · intro h
      obtain ⟨r, u, rfl, hu⟩ := h
      rcases List.eq_nil_or_concat r with rfl | ⟨r, b, rfl⟩
      · exact Or.inl rfl
      rw [List.concat_eq_append, at?_concat, Option.bind_eq_some_iff] at hu
      obtain ⟨t, ht, hu⟩ := hu
      rcases b with j | j
      · refine Or.inr (Or.inl ⟨j, t, ht, ?_⟩)
        exact (hattributes t (List.mem_of_getElem? ht) _ _).mpr ⟨r, u, by simp, hu⟩
      · refine Or.inr (Or.inr ⟨j, t, ht, ?_⟩)
        exact (hchildren t (List.mem_of_getElem? ht) _ _).mpr ⟨r, u, by simp, hu⟩

theorem mem_addresses (tree : Tree) (a : Address) :
    a ∈ tree.addresses ↔ ∃ t, tree.at? a = some t := by
  simp [addresses, mem_addressesFrom]

theorem mem_addresses_of_append (tree : Tree) (r base : Address)
    (h : r ++ base ∈ tree.addresses) : base ∈ tree.addresses := by
  rw [mem_addresses] at h ⊢
  obtain ⟨t, ht⟩ := h
  rw [at?_append, Option.bind_eq_some_iff] at ht
  obtain ⟨p, hp, _⟩ := ht
  exact ⟨p, hp⟩

theorem mem_addresses_of_below {tree : Tree} {a b : Address} (h : Address.Below a b)
    (hb : b ∈ tree.addresses) : a ∈ tree.addresses := by
  obtain ⟨r, _, rfl⟩ := h
  exact mem_addresses_of_append tree r a hb

/-- The subtrees of siblings follow one another in document order. -/
theorem addressesFromList_sorted (base : Address) (branch : Nat → Branch) (i : Nat)
    (ts : List Tree) (hbranch : ∀ j k, j < k → branch j < branch k)
    (hts : ∀ t ∈ ts, ∀ base, (addressesFrom base t).Pairwise Address.precedes) :
    (addressesFromList base branch i ts).Pairwise Address.precedes := by
  induction ts generalizing i with
  | nil => exact List.Pairwise.nil
  | cons t ts ih =>
    rw [addressesFromList, List.pairwise_append]
    refine ⟨hts t List.mem_cons_self _, ih _ fun u hu => hts u (List.mem_cons_of_mem t hu), ?_⟩
    intro a ha b hb
    obtain ⟨r, u, rfl, _⟩ := (mem_addressesFrom _ _ _).mp ha
    obtain ⟨j, v, _, hb⟩ := (mem_addressesFromList _ _ _ _ _).mp hb
    obtain ⟨s, w, rfl, _⟩ := (mem_addressesFrom _ _ _).mp hb
    exact Address.precedes_of_leftOf
      ⟨base, branch i, branch (i + 1 + j), r, s, hbranch _ _ (by omega), rfl, rfl⟩

theorem addressesFrom_sorted (base : Address) (tree : Tree) :
    (addressesFrom base tree).Pairwise Address.precedes := by
  induction tree using induct generalizing base with
  | step label attributes children hattributes hchildren =>
    rw [addressesFrom, List.pairwise_cons, List.pairwise_append]
    refine ⟨?_, addressesFromList_sorted _ _ _ _ (fun _ _ h => h) hattributes,
      addressesFromList_sorted _ _ _ _ (fun _ _ h => h) hchildren, ?_⟩
    · intro a ha
      rcases List.mem_append.mp ha with ha | ha
      all_goals
        obtain ⟨j, t, _, ha⟩ := (mem_addressesFromList _ _ _ _ _).mp ha
        obtain ⟨r, u, rfl, _⟩ := (mem_addressesFrom _ _ _).mp ha
        exact Address.precedes_of_below (Address.below_append_cons r _ base)
    · intro a ha b hb
      obtain ⟨j, t, _, ha⟩ := (mem_addressesFromList _ _ _ _ _).mp ha
      obtain ⟨r, u, rfl, _⟩ := (mem_addressesFrom _ _ _).mp ha
      obtain ⟨k, v, _, hb⟩ := (mem_addressesFromList _ _ _ _ _).mp hb
      obtain ⟨s, w, rfl, _⟩ := (mem_addressesFrom _ _ _).mp hb
      exact Address.precedes_of_leftOf 
        ⟨base, _, _, r, s, Branch.attribute_lt_child (0 + j) (0 + k), rfl, rfl⟩

/-- Document order is the order in which a tree lists its nodes. -/
theorem addresses_sorted (tree : Tree) : tree.addresses.Pairwise Address.precedes :=
  addressesFrom_sorted [] tree

/-- Descendants are reached by child branches alone. -/
theorem mem_descendantsFrom (a base : Address) (tree : Tree) :
    a ∈ descendantsFrom base tree ↔
      ∃ r t, r ≠ [] ∧ (∀ b ∈ r, b.isChild = true) ∧ a = r ++ base ∧ tree.at? r = some t := by
  induction tree using induct generalizing a base with
  | step label attributes children _ hchildren =>
    rw [descendantsFrom, mem_descendantsFromList]
    constructor
    · intro h
      rcases h with ⟨j, t, ht, rfl | h⟩
      · refine ⟨[.child j], t, by simp, by simp [Branch.isChild], by simp, ?_⟩
        simpa [at?, branch?, Tree.children] using ht
      · obtain ⟨r, u, _, hr, rfl, hu⟩ := (hchildren t (List.mem_of_getElem? ht) _ _).mp h
        refine ⟨r ++ [.child j], u, by simp, ?_, by simp, ?_⟩
        · simpa [or_imp, forall_and, Branch.isChild] using hr
        · simpa [at?_concat, branch?, Tree.children, ht] using hu
    · intro h
      obtain ⟨r, u, hne, hr, rfl, hu⟩ := h
      rcases List.eq_nil_or_concat r with rfl | ⟨r, b, rfl⟩
      · exact absurd rfl hne
      rw [List.concat_eq_append] at hr hu ⊢
      rw [at?_concat, Option.bind_eq_some_iff] at hu
      obtain ⟨t, ht, hu⟩ := hu
      rcases b with j | j
      · have hb := hr (.attribute j) (by simp)
        cases hb
      · refine ⟨j, t, ht, ?_⟩
        by_cases hnil : r = []
        · subst hnil
          exact Or.inl (by simp)
        · refine Or.inr ((hchildren t (List.mem_of_getElem? ht) _ _).mpr ⟨r, u, hnil, ?_, ?_, hu⟩)
          · exact fun b hb => hr b (List.mem_append_left _ hb)
          · simp

theorem descendantsFromList_sublist (base : Address) (i : Nat) (ts : List Tree)
    (hts : ∀ t ∈ ts, ∀ base, (base :: descendantsFrom base t).Sublist (addressesFrom base t)) :
    (descendantsFromList base i ts).Sublist (addressesFromList base .child i ts) := by
  induction ts generalizing i with
  | nil => exact List.Sublist.refl _
  | cons t ts ih =>
    rw [descendantsFromList, addressesFromList, ← List.cons_append]
    exact List.Sublist.append (hts t List.mem_cons_self _)
      (ih _ fun u hu => hts u (List.mem_cons_of_mem t hu))

theorem descendantsFrom_sublist (base : Address) (tree : Tree) :
    (base :: descendantsFrom base tree).Sublist (addressesFrom base tree) := by
  induction tree using induct generalizing base with
  | step label attributes children _ hchildren =>
    rw [descendantsFrom, addressesFrom]
    refine List.Sublist.cons_cons base ?_
    exact (descendantsFromList_sublist base 0 children hchildren).trans
      (List.sublist_append_right _ _)

theorem mem_descendantsOf (tree : Tree) (n m : Address) :
    m ∈ tree.descendantsOf n ↔
      m ∈ tree.addresses ∧ ∃ r, r ≠ [] ∧ (∀ b ∈ r, b.isChild = true) ∧ m = r ++ n := by
  rw [descendantsOf, mem_addresses]
  cases hn : tree.at? n with
  | none =>
    simp only [List.not_mem_nil, false_iff]
    intro h
    obtain ⟨⟨t, ht⟩, r, _, _, rfl⟩ := h
    simp [at?_append, hn] at ht
  | some t =>
    simp only [mem_descendantsFrom]
    constructor
    · intro h
      obtain ⟨r, u, hne, hr, rfl, hu⟩ := h
      exact ⟨⟨u, by simpa [at?_append, hn] using hu⟩, r, hne, hr, rfl⟩
    · intro h
      obtain ⟨⟨u, hu⟩, r, hne, hr, rfl⟩ := h
      exact ⟨r, u, hne, hr, rfl, by simpa [at?_append, hn] using hu⟩

theorem subtreeOf_sorted (tree : Tree) (n : Address) :
    (n :: tree.descendantsOf n).Pairwise Address.precedes := by
  rw [descendantsOf]
  cases tree.at? n with
  | none => exact List.pairwise_singleton _ n
  | some t => exact (addressesFrom_sorted n t).sublist (descendantsFrom_sublist n t)

theorem descendantsOf_sorted (tree : Tree) (n : Address) :
    (tree.descendantsOf n).Pairwise Address.precedes := (subtreeOf_sorted tree n).of_cons

end Tree

end XPathQuery
