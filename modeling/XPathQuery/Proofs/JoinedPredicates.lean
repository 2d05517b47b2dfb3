import XPathQuery.Proofs.PredicateVerdicts

/-!
Predicates in a row and predicates joined. A second predicate sees the nodes that the first
one left, numbered anew, while an operand of and sees the numbers of all nodes. To a second
predicate that looks at the nodes alone this makes no difference, nor does it whether it is
evaluated in the same round as the first or after it. A predicate that is a number asks for
the place with that number, as does a comparison of the number with position().
-/
namespace XPathQuery

theorem narrow_singleton (tree : Tree) (predicate : Expr) (root : Address)
    (nodes : List Address) :
    narrow tree [predicate] root nodes =
      keepNodes (fun context => evaluate tree predicate context) root nodes.length 1 nodes := by
  simp only [narrow]
  exact bind_pure _

section Conjunction
variable {tree : Tree} {among : List Address} {root : Address} {p q : Expr}

/-- Whatever numbers the nodes have, a conjunction keeps those which the first operand keeps
and on which the second one has a favourable verdict. Where the first operand is false, the
second one is asked neither here nor of what is kept. -/
theorem keepNodes_and_eq_ok_iff (hnever : p.NeverNumber tree among root)
    (hignores : q.IgnoresPlace tree among root) (size position : Nat) (nodes result : List Address)
    (hnodes : nodes ⊆ among) (hpos : 0 < position)
    (hsize : position + nodes.length ≤ size + 1) :
    keepNodes (fun context => evaluate tree (.binary .and p q) context) root size position
        nodes = .ok result ↔
      ∃ kept, keepNodes (fun context => evaluate tree p context) root size position nodes =
        .ok kept ∧ Selected (q.verdict tree root) kept result := by
  induction nodes generalizing position result with
  | nil => simp [keepNodes, selected_nil, eq_comm]
  | cons node rest ih =>
    obtain ⟨hnode, hrest⟩ := List.cons_subset.mp hnodes
    rw [List.length_cons] at hsize
    have hplaced : Context.Placed among root ⟨node, root, position, size⟩ :=
      ⟨rfl, hnode, hpos, by simp only; omega⟩
    have hkeeps (l : Value) (hl : evaluate tree p ⟨node, root, position, size⟩ = .ok l) :
        l.keeps position = l.toBool := Value.keeps_of_type_ne (hnever _ hplaced l hl) position
    simp only [keepNodes_cons_eq_ok, evaluate_and_eq_ok,
      ih (position + 1) _ hrest (Nat.succ_pos _) (by omega)]
    constructor
    · intro h
      obtain ⟨_, others, ⟨l, hl, hvalue⟩, ⟨kept, hkept, hselected⟩, rfl⟩ := h
      rcases hvalue with ⟨hfalse, rfl⟩ | ⟨htrue, r, hr, rfl⟩
      · refine ⟨kept, ⟨l, kept, hl, hkept, ?_⟩, ?_⟩
        · simp [hkeeps l hl, hfalse]
        · simpa using hselected
      · refine ⟨node :: kept, ⟨l, kept, hl, hkept, ?_⟩, ?_⟩
        · simp [hkeeps l hl, htrue]
        · have hverdict := (hignores.verdict_eq_some_iff hplaced r.toBool).mpr ⟨r, hr, rfl⟩
          exact (selected_cons _ _ _ _).mpr ⟨r.toBool, others, hverdict, hselected, rfl⟩
    · intro h
      obtain ⟨_, ⟨l, kept, hl, hkept, rfl⟩, hselected⟩ := h
      rw [hkeeps l hl] at hselected
      cases hholds : l.toBool with
      | false =>
        rw [hholds] at hselected
        exact ⟨_, result, ⟨l, hl, Or.inl ⟨hholds, rfl⟩⟩, ⟨kept, hkept, hselected⟩, rfl⟩
      | true =>
        rw [hholds, if_pos rfl, selected_cons] at hselected
        obtain ⟨_, others, hverdict, hselected, rfl⟩ := hselected
        obtain ⟨r, hr, rfl⟩ := (hignores.verdict_eq_some_iff hplaced _).mp hverdict
        exact ⟨_, others, ⟨l, hl, Or.inr ⟨hholds, r, hr, rfl⟩⟩, ⟨kept, hkept, hselected⟩, rfl⟩

/-- A conjunction has the effect of its operands one after the other. -/
theorem narrow_and_sameResult (hp : p.NeverNumber tree among root)
    (hq : q.NeverNumber tree among root) (hignores : q.IgnoresPlace tree among root)
    (nodes : List Address) (hnodes : nodes ⊆ among) :
    SameResult (narrow tree [p, q] root nodes) (narrow tree [.binary .and p q] root nodes) := by
  intro result
  rw [narrow_cons_eq_ok, narrow_singleton,
    keepNodes_and_eq_ok_iff hp hignores _ _ nodes result hnodes Nat.one_pos (by omega)]
  refine exists_congr fun kept => and_congr_right fun hkept => ?_
  have hkeptNodes := (keepNodes_sublist _ root _ _ nodes kept hkept).subset
  have hsubset := List.Subset.trans hkeptNodes hnodes
  rw [narrow_singleton]
  exact keepNodes_eq_ok_iff_selected hq hignores _ _ kept result hsubset Nat.one_pos (by omega)

end Conjunction

section Position
variable {tree : Tree} {among : List Address} {root : Address}
  {predicate predicate' : Context → Except XPathError Value}

theorem keepNodes_cons_eq_map (node : Address) (size position : Nat) (rest : List Address) :
    keepNodes predicate root size position (node :: rest) =
      ((predicate ⟨node, root, position, size⟩).map (Value.keeps position) >>= fun keep =>
        keepNodes predicate root size (position + 1) rest >>= fun others =>
          .ok (if keep then node :: others else others)) := by
  rw [keepNodes]
  cases predicate ⟨node, root, position, size⟩ <;> rfl

/-- All that matters of a value is whether it keeps a node at its place. -/
theorem keepNodes_congr (size position : Nat) (nodes : List Address)
    (hnodes : nodes ⊆ among) (hpos : 0 < position)
    (hsize : position + nodes.length ≤ size + 1)
    (h : ∀ context : Context, context.Placed among root →
      (predicate context).map (Value.keeps context.position) =
        (predicate' context).map (Value.keeps context.position)) :
    keepNodes predicate root size position nodes =
      keepNodes predicate' root size position nodes := by
  induction nodes generalizing position with
  | nil => rfl
  | cons node rest ih =>
    obtain ⟨hnode, hrest⟩ := List.cons_subset.mp hnodes
    rw [List.length_cons] at hsize
    have hkeeps := h ⟨node, root, position, size⟩ ⟨rfl, hnode, hpos, by simp only; omega⟩
    rw [keepNodes_cons_eq_map, keepNodes_cons_eq_map, hkeeps,
      ih (position + 1) hrest (Nat.succ_pos _) (by omega)]

theorem evaluate_position (context : Context) :
    evaluate tree (.call "position" []) context = .ok (.number (.ofNat context.position)) := by
  rw [evaluate, evaluateAll_nil]
  rfl

/-- Compared with position(), a number keeps the nodes that it keeps by itself. -/
theorem map_keeps_equal_position {e : Expr} (halways : e.AlwaysNumber tree among root)
    (context : Context) (hplaced : context.Placed among root) :
    (evaluate tree (.binary (.comparison .equal) e (.call "position" [])) context).map
        (Value.keeps context.position) =
      (evaluate tree e context).map (Value.keeps context.position) := by
  rw [evaluate, evaluate_position]
  cases hvalue : evaluate tree e context with
  | error error => rfl
  | ok value =>
    have htype := halways context hplaced value hvalue
    cases value with
    | nodes addresses => cases htype
    | scalar s =>
      cases s with
      | number n => rfl
      | string text => cases htype
      | boolean truth => cases htype

/-- A number by itself and its comparison with position() have the same effect. -/
theorem narrow_equal_position {e : Expr} (halways : e.AlwaysNumber tree among root)
    (nodes : List Address) (hnodes : nodes ⊆ among) :
    narrow tree [e] root nodes =
      narrow tree [.binary (.comparison .equal) e (.call "position" [])] root nodes := by
  rw [narrow_singleton, narrow_singleton]
  exact keepNodes_congr _ _ nodes hnodes Nat.one_pos (by omega)
    fun context hplaced => (map_keeps_equal_position halways context hplaced).symm

end Position

/-- On any list of nodes, two predicates in a row that are no numbers leave what
their conjunction leaves, or both ways fail, if the second one does not look at places. A
predicate that is always a number leaves what its comparison with position() leaves, or fails
with the same error. -/
theorem narrow_joined (tree : Tree) (root : Address) (nodes : List Address) :
    (∀ p q : Expr, p.NeverNumber tree nodes root → q.NeverNumber tree nodes root →
      q.IgnoresPlace tree nodes root →
      SameResult (narrow tree [p, q] root nodes) (narrow tree [.binary .and p q] root nodes)) ∧
    ∀ e : Expr, e.AlwaysNumber tree nodes root →
      narrow tree [e] root nodes =
        narrow tree [.binary (.comparison .equal) e (.call "position" [])] root nodes :=
  ⟨fun _ _ hp hq hignores =>
      narrow_and_sameResult hp hq hignores nodes (List.Subset.refl nodes),
    fun _ halways => narrow_equal_position halways nodes (List.Subset.refl nodes)⟩

/-- Of three nodes the last is left out for its place and the first for want of an attribute. -/
theorem narrow_joined_places :
    let element : Label := ⟨.element, some ⟨none, "a"⟩, none, "", []⟩
    let own : Tree := .node ⟨.attribute, some ⟨none, "x"⟩, none, "u", []⟩ [] []
    let tree : Tree := .node ⟨.root, none, none, "", []⟩ []
      [.node element [own] [], .node element [] [], .node element [own] []]
    let nodes : List Address := [[.child 1], [.child 2], [.child 0]]
    let early : Expr := .binary (.comparison .less) (.call "position" []) (.call "last" [])
    let attributes : Expr := .path .context [.step .attribute .wildcard []]
    narrow tree [early, attributes] [] nodes = .ok [[.child 2]] ∧
    narrow tree [.binary .and early attributes] [] nodes = .ok [[.child 2]] ∧
    narrow tree [.call "last" []] [] nodes = .ok [[.child 0]] ∧
    narrow tree [.binary (.comparison .equal) (.call "last" []) (.call "position" [])] [] nodes =
      .ok [[.child 0]] := by
  intro element own tree nodes early attributes
  obtain ⟨hjoined, hplace⟩ := narrow_joined tree [] nodes
  have hearly : early.NeverNumber tree nodes [] :=
    Expr.neverNumber_of_staticType tree nodes [] early (by decide)
  have hattributes : attributes.NeverNumber tree nodes [] :=
    Expr.neverNumber_of_staticType tree nodes [] attributes (by decide)
  have hsame := hjoined early attributes hearly hattributes
    (Expr.ignoresPlace_path_context tree nodes [] _)
  have hrow : narrow tree [early, attributes] [] nodes = .ok [[.child 2]] :=
    (toOption_eq_some_iff _ _).mp (by decide +kernel)
  have hlast : narrow tree [.call "last" []] [] nodes = .ok [[.child 0]] :=
    (toOption_eq_some_iff _ _).mp (by decide +kernel)
  have hequal := hplace (.call "last" [])
    (Expr.alwaysNumber_of_staticType tree nodes [] (.call "last" []) (by decide))
  exact ⟨hrow, (hsame _).mp hrow, hlast, hequal.symm.trans hlast⟩

end XPathQuery
