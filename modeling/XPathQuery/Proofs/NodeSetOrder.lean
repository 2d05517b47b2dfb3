import XPathQuery.Proofs.DocumentOrder

/-!
Node-sets are strictly ascending. Merging two ascending lists gives an ascending list
again, so merging in rounds turns a list in any order, with any repetition, into the
ascending list of its nodes.
-/
namespace XPathQuery

namespace NodeSet

def Ascending (nodes : List Address) : Prop := nodes.Pairwise Address.precedes

theorem ascending_nil : Ascending [] := List.Pairwise.nil

theorem ascending_singleton (a : Address) : Ascending [a] := List.pairwise_singleton _ a

theorem Ascending.nodup {nodes : List Address} (h : Ascending nodes) : nodes.Nodup :=
  h.imp Address.ne_of_precedes

theorem Ascending.sublist {nodes others : List Address} (h : Ascending nodes)
    (hsub : others.Sublist nodes) : Ascending others := List.Pairwise.sublist hsub h

def IsFirst (nodes : List Address) (n : Address) : Prop :=
  n ∈ nodes ∧ ∀ m ∈ nodes, m ≠ n → n.precedes m

/-- The first of an ascending list is the first in document order. -/
theorem Ascending.head?_eq_some_iff {nodes : List Address} (h : Ascending nodes) (n : Address) :
    nodes.head? = some n ↔ IsFirst nodes n := by
  cases nodes with
  | nil => simp [IsFirst]
  | cons a rest =>
    obtain ⟨ha, _⟩ := List.pairwise_cons.mp h
    rw [List.head?_cons, Option.some.injEq]
    constructor
    · intro h
      subst h
      refine ⟨List.mem_cons_self, fun m hm hne => ?_⟩
      exact ha m ((List.mem_cons.mp hm).resolve_left hne)
    · intro h
      obtain ⟨hn, hfirst⟩ := h
      by_contra hne
      have hna := ha n ((List.mem_cons.mp hn).resolve_left (Ne.symm hne))
      exact Address.not_precedes_of_precedes hna (hfirst a List.mem_cons_self hne)

/-- Merging a node in keeps a list ascending when all that comes after it does. -/
theorem ascending_mergeFrom (a : Address) (nodes others : List Address)
    (rest : List Address → List Address)
    (hmem : ∀ others b, b ∈ rest others ↔ b ∈ nodes ∨ b ∈ others)
    (hrest : ∀ others, Ascending others → Ascending (rest others))
    (hnodes : ∀ b ∈ nodes, a.precedes b) (hothers : Ascending others) :
    Ascending (mergeFrom a rest others) := by
  induction others with
  | nil =>
    refine List.Pairwise.cons ?_ (hrest [] hothers)
    intro c hc
    rcases (hmem [] c).mp hc with hc | hc
    · exact hnodes c hc
    · cases hc
  | cons b others ih =>
    obtain ⟨hb, htail⟩ := List.pairwise_cons.mp hothers
    unfold mergeFrom
    split
    · rename_i hab
      refine List.Pairwise.cons ?_ (hrest (b :: others) hothers)
      intro c hc
      rcases (hmem (b :: others) c).mp hc with hc | hc
      · exact hnodes c hc
      · rcases List.mem_cons.mp hc with rfl | hc
        · exact hab
        · exact Address.precedes_trans hab (hb c hc)
    · split
      · rename_i hab
        subst hab
        refine List.Pairwise.cons ?_ (hrest others htail)
        intro c hc
        rcases (hmem others c).mp hc with hc | hc
        · exact hnodes c hc
        · exact hb c hc
      · rename_i hnot hne
        have hba : b.precedes a := by
          rcases Address.precedes_or_eq_or_precedes a b with h | h | h
          · exact absurd h hnot
          · exact absurd h hne
          · exact h
        refine List.Pairwise.cons ?_ (ih htail)
        intro c hc
        rcases (mem_mergeFrom (hmem · c) others).mp hc with rfl | hc | hc
        · exact hba
        · exact Address.precedes_trans hba (hnodes c hc)
        · exact hb c hc

theorem ascending_union (nodes others : List Address) (h : Ascending nodes)
    (hothers : Ascending others) : Ascending (union nodes others) := by
  induction nodes generalizing others with
  | nil => exact hothers
  | cons a nodes ih =>
    obtain ⟨ha, hnodes⟩ := List.pairwise_cons.mp h
    exact ascending_mergeFrom a nodes others (union nodes) (fun _ _ => mem_union)
      (fun others hothers => ih others hnodes hothers) ha hothers

theorem ascending_mergePairs (sets : List (List Address)) (h : ∀ s ∈ sets, Ascending s) :
    ∀ s ∈ mergePairs sets, Ascending s := by
  match sets with
  | [] => exact h
  | [_] => exact h
  | first :: second :: rest =>
    intro s hs
    rw [mergePairs] at hs
    rcases List.mem_cons.mp hs with rfl | hs
    · exact ascending_union first second (h first (by simp)) (h second (by simp))
    · exact ascending_mergePairs rest (fun t ht => h t (by simp [ht])) s hs

theorem ascending_foldr_union (sets : List (List Address)) (h : ∀ s ∈ sets, Ascending s) :
    Ascending (sets.foldr union []) := by
  induction sets with
  | nil => exact ascending_nil
  | cons first rest ih =>
    exact ascending_union first _ (h first List.mem_cons_self)
      (ih fun s hs => h s (List.mem_cons_of_mem first hs))

theorem ascending_mergeRounds (bound : List Address) (sets : List (List Address))
    (h : ∀ s ∈ sets, Ascending s) : Ascending (mergeRounds bound sets) := by
  induction bound generalizing sets with
  | nil => exact ascending_foldr_union sets h
  | cons _ bound ih =>
    match sets with
    | [] => exact ascending_foldr_union [] h
    | [first] => exact ascending_foldr_union [first] h
    | first :: second :: rest => exact ih _ (ascending_mergePairs _ h)

/-- The node-set made of any list is ascending. -/
theorem ascending_ofList (nodes : List Address) : Ascending (ofList nodes) := by
  apply ascending_mergeRounds
  intro s hs
  obtain ⟨a, _, rfl⟩ := List.mem_map.mp hs
  exact ascending_singleton a

/-- An ascending list is known by the nodes it holds. -/
theorem Ascending.eq_of_mem_iff {nodes others : List Address} (h : Ascending nodes)
    (hothers : Ascending others) (hmem : ∀ a, a ∈ nodes ↔ a ∈ others) : nodes = others := by
  have hperm : nodes.Perm others := (List.perm_ext_iff_of_nodup h.nodup hothers.nodup).mpr hmem
  refine List.Perm.eq_of_pairwise ?_ h hothers hperm
  intro a b _ _ hab hba
  exact absurd hba (Address.not_precedes_of_precedes hab)

theorem ofList_congr {nodes others : List Address} (h : ∀ a, a ∈ nodes ↔ a ∈ others) :
    ofList nodes = ofList others := by
  refine (ascending_ofList nodes).eq_of_mem_iff (ascending_ofList others) fun a => ?_
  rw [mem_ofList, mem_ofList, h]

theorem Ascending.ofList_eq_self {nodes : List Address} (h : Ascending nodes) :
    ofList nodes = nodes :=
  (ascending_ofList nodes).eq_of_mem_iff h fun _ => mem_ofList

end NodeSet

end XPathQuery
