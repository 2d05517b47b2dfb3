import XPathQuery.Proofs.BindingLists
import XPathQuery.Proofs.NamespacesAround

/-!
The bindings of a caller over those around a node. They are put into ascending order
first, so that the order in which they come does not show. A binding of a prefix that is
bound already changes its namespace in its place, and the others follow at the end.
-/
namespace XPathQuery

open Namespaces

namespace Overrides

def get? (overrides : Overrides) (p : String) : Option String := overrides.reverse.lookup p

def Ascending (overrides : Overrides) : Prop := overrides.Pairwise fun a b => a.1 < b.1

theorem Ascending.distinctPrefixes {overrides : Overrides} (h : overrides.Ascending) :
    DistinctPrefixes overrides := by
  refine List.pairwise_map.mpr (List.Pairwise.imp ?_ h)
  intro a b hlt heq
  exact String.lt_irrefl b.1 (heq ▸ hlt)

theorem mem_of_mem_put {entry b : String × String} {entries : Overrides}
    (h : b ∈ put entry entries) : b = entry ∨ b ∈ entries := by
  induction entries with
  | nil => exact Or.inl (List.mem_singleton.mp h)
  | cons first rest ih =>
    rw [put] at h
    split at h
    · exact List.mem_cons.mp h
    · split at h
      · rcases List.mem_cons.mp h with h | h
        · exact Or.inl h
        · exact Or.inr (List.mem_cons_of_mem first h)
      · rcases List.mem_cons.mp h with h | h
        · exact Or.inr (h ▸ List.mem_cons_self)
        · exact (ih h).imp id (List.mem_cons_of_mem first)

theorem lookup_put (entry : String × String) (entries : Overrides) (p : String) :
    (put entry entries).lookup p = if p = entry.1 then some entry.2 else entries.lookup p := by
  induction entries with
  | nil => exact lookup_cons_eq entry p
  | cons first rest ih =>
    rw [put]
    split
    · exact lookup_cons_eq entry p
    · split
      case isTrue heq =>
        rw [lookup_cons_eq, lookup_cons_eq, heq]
        by_cases hp : p = first.1
        · rw [if_pos hp, if_pos hp]
        · rw [if_neg hp, if_neg hp, if_neg hp]
      case isFalse hne =>
        rw [lookup_cons_eq, lookup_cons_eq, ih]
        by_cases hp : p = first.1
        · rw [if_pos hp, if_pos hp, if_neg fun h => hne (h.symm.trans hp)]
        · rw [if_neg hp, if_neg hp]

theorem Ascending.put {entries : Overrides} (h : entries.Ascending) (entry : String × String) :
    (put entry entries).Ascending := by
  induction entries with
  | nil => exact List.pairwise_singleton _ _
  | cons first rest ih =>
    obtain ⟨hfirst, hrest⟩ := List.pairwise_cons.mp h
    rw [Overrides.put]
    split
    case isTrue hlt =>
      refine List.pairwise_cons.mpr ⟨fun b hb => ?_, h⟩
      rcases List.mem_cons.mp hb with rfl | hb
      · exact hlt
      · exact String.lt_trans hlt (hfirst b hb)
    case isFalse hnot =>
      split
      case isTrue heq => exact List.pairwise_cons.mpr ⟨fun b hb => heq ▸ hfirst b hb, hrest⟩
      case isFalse hne =>
        refine List.pairwise_cons.mpr ⟨fun b hb => ?_, ih hrest⟩
        rcases mem_of_mem_put hb with rfl | hb
        · refine Classical.byContradiction fun hnot' => hne ?_
          exact String.le_antisymm (String.not_lt.mp hnot') (String.not_lt.mp hnot)
        · exact hfirst b hb

theorem get?_cons (entry : String × String) (rest : Overrides) (p : String) :
    get? (entry :: rest) p = (rest.get? p).or (if p = entry.1 then some entry.2 else none) := by
  rw [get?, List.reverse_cons, List.lookup_append, lookup_cons_eq]
  rfl

theorem lookup_foldl_put (overrides entries : Overrides) (p : String) :
    (overrides.foldl (fun entries entry => put entry entries) entries).lookup p =
      (overrides.get? p).or (entries.lookup p) := by
  induction overrides generalizing entries with
  | nil => rfl
  | cons entry rest ih =>
    rw [List.foldl_cons, ih, lookup_put, get?_cons, Option.or_assoc]
    split <;> rfl

/-- Of several bindings of a prefix the last one counts. -/
theorem lookup_sorted (overrides : Overrides) (p : String) :
    overrides.sorted.lookup p = overrides.get? p := by
  rw [sorted, lookup_foldl_put]
  exact Option.or_none

theorem ascending_sorted (overrides : Overrides) : overrides.sorted.Ascending := by
  have h : ∀ entries : Overrides, entries.Ascending →
      (overrides.foldl (fun entries entry => put entry entries) entries).Ascending := by
    induction overrides with
    | nil => exact fun _ hentries => hentries
    | cons entry rest ih => exact fun entries hentries => ih _ (hentries.put entry)
  exact h [] List.Pairwise.nil

/-- The order in which bindings come, and bindings that do not count, do not show. -/
theorem sorted_congr {overrides others : Overrides}
    (h : ∀ p, others.get? p = overrides.get? p) : others.sorted = overrides.sorted := by
  have hascending := ascending_sorted others
  have hascending' := ascending_sorted overrides
  refine List.Perm.eq_of_pairwise ?_ hascending hascending'
    (hascending.distinctPrefixes.perm_of_lookup_eq hascending'.distinctPrefixes fun p => ?_)
  · intro a b _ _ hab hba
    exact absurd (String.lt_trans hab hba) (String.lt_irrefl a.1)
  · rw [lookup_sorted, lookup_sorted, h]

/-- A prefix that is bound once is bound to the same namespace in every order. -/
theorem get?_perm {overrides others : Overrides} (h : DistinctPrefixes overrides)
    (hperm : others.Perm overrides) (p : String) : others.get? p = overrides.get? p := by
  have hothers : DistinctPrefixes others.reverse :=
    ((others.reverse_perm.trans hperm).map Prod.fst).nodup_iff.mpr h
  have hoverrides : DistinctPrefixes overrides.reverse :=
    (overrides.reverse_perm.map Prod.fst).nodup_iff.mpr h
  ext u
  rw [get?, get?, hothers.lookup_eq_some_iff_mem, hoverrides.lookup_eq_some_iff_mem,
    List.mem_reverse, List.mem_reverse, hperm.mem_iff]

end Overrides

namespace Namespaces

/-- Whether a caller may bind a prefix. The empty one is for the default namespace. -/
def isOverridable (p : String) : Bool := p != "" && !isFixed p

def overridden (uris : String → Option String) (b : String × String) : String × String :=
  (b.1, if isOverridable b.1 then (uris b.1).getD b.2 else b.2)

section Override
variable (namespaces : Namespaces)

theorem bindings_override (entry : String × String) :
    (namespaces.override entry).bindings =
      if isOverridable entry.1 then assign namespaces.bindings entry.1 entry.2
      else namespaces.bindings := by
  unfold override isOverridable
  by_cases hempty : entry.1 = ""
  · simp [hempty]
  · by_cases hfixed : isFixed entry.1 = true
    · simp [hempty, hfixed]
    · simp [hempty, hfixed]

theorem defaultUri_override (entry : String × String) :
    (namespaces.override entry).defaultUri =
      if entry.1 = "" then entry.2 else namespaces.defaultUri := by
  unfold override
  split
  · rfl
  · split <;> rfl

theorem distinctPrefixes_assign {bindings : List (String × String)}
    (h : DistinctPrefixes bindings) (p u : String) : DistinctPrefixes (assign bindings p u) := by
  unfold assign
  split
  case isTrue =>
    have hkeys : (bindings.map fun b => if b.1 == p then (p, u) else b).map Prod.fst =
        bindings.map Prod.fst := by
      rw [List.map_map]
      refine List.map_congr_left fun b _ => ?_
      by_cases hb : b.1 = p <;> simp [hb]
    rw [DistinctPrefixes, hkeys]
    exact h
  case isFalse hfree =>
    rw [DistinctPrefixes, List.map_append]
    refine List.Nodup.append h (List.nodup_singleton p) ?_
    simpa using hfree

theorem distinctPrefixes_foldl_override (h : DistinctPrefixes namespaces.bindings)
    (entries : Overrides) : DistinctPrefixes (entries.foldl override namespaces).bindings := by
  induction entries generalizing namespaces with
  | nil => exact h
  | cons entry rest ih =>
    refine ih _ ?_
    rw [bindings_override]
    split
    · exact distinctPrefixes_assign h _ _
    · exact h

theorem defaultUri_foldl_override {entries : Overrides} (h : DistinctPrefixes entries) :
    (entries.foldl override namespaces).defaultUri =
      (entries.lookup "").getD namespaces.defaultUri := by
  induction entries generalizing namespaces with
  | nil => rfl
  | cons entry rest ih =>
    obtain ⟨hfirst, hrest⟩ := (distinctPrefixes_cons entry).mp h
    rw [List.foldl_cons, ih _ hrest, defaultUri_override, lookup_cons_eq]
    by_cases hempty : entry.1 = ""
    · have hnone : List.lookup "" rest = none :=
        lookup_eq_none_iff_forall_ne.mpr (hempty ▸ hfirst)
      rw [if_pos hempty, if_pos hempty.symm, hnone]
      rfl
    · rw [if_neg hempty, if_neg (Ne.symm hempty)]

theorem overridden_congr {uris uris' : String → Option String} {b : String × String}
    (h : isOverridable b.1 = true → uris b.1 = uris' b.1) :
    overridden uris b = overridden uris' b := by
  unfold overridden
  split
  · next hover => rw [h hover]
  · rfl

theorem overridden_none : (overridden fun _ => none) = id :=
  funext fun b => by simp [overridden]

theorem lookup_assign (bindings : List (String × String)) (p u q : String) :
    (assign bindings p u).lookup q = if q = p then some u else bindings.lookup q := by
  unfold assign
  split
  case isTrue hbound =>
    have hmap : (bindings.map fun b => if b.1 == p then (p, u) else b) =
        bindings.map fun b => (b.1, if b.1 = p then u else b.2) := by
      refine List.map_congr_left fun b _ => ?_
      by_cases hb : b.1 = p <;> simp [hb]
    rw [hmap, lookup_map_uri fun b => if b.1 = p then u else b.2]
    split
    case isTrue hq =>
      rw [any_eq_isSome_lookup, ← hq] at hbound
      obtain ⟨v, hv⟩ := Option.isSome_iff_exists.mp hbound
      rw [hv, Option.map_some]
    case isFalse => simp
  case isFalse hfree =>
    rw [any_eq_isSome_lookup, Bool.not_eq_true, Option.isSome_eq_false_iff,
      Option.isNone_iff_eq_none] at hfree
    rw [List.lookup_append, lookup_cons_eq]
    split
    case isTrue hq => rw [hq, hfree, Option.none_or]
    case isFalse => exact Option.or_none

/-- A prefix that is assigned to and not overridden any more. -/
theorem map_overridden_assign (bindings : List (String × String)) {p : String} (u : String)
    {uris : String → Option String} (hover : isOverridable p = true) (hnone : uris p = none) :
    (assign bindings p u).map (overridden uris) =
      bindings.map (overridden fun q => if q = p then some u else uris q) ++
        if (bindings.lookup p).isNone then [(p, u)] else [] := by
  have hown : overridden uris (p, u) = (p, u) := by simp [overridden, hnone]
  unfold assign
  rw [any_eq_isSome_lookup]
  cases hlookup : bindings.lookup p with
  | some v =>
    rw [Option.isSome_some, if_pos rfl, Option.isNone_some, if_neg Bool.false_ne_true,
      List.append_nil, List.map_map]
    refine List.map_congr_left fun b _ => ?_
    by_cases hb : b.1 = p
    · simp [hb, overridden, hover, hnone]
    · simp only [Function.comp_apply, beq_eq_false_iff_ne.mpr hb, Bool.false_eq_true, if_false]
      exact overridden_congr fun _ => (if_neg hb).symm
  | none =>
    rw [Option.isSome_none, if_neg Bool.false_ne_true, Option.isNone_none, if_pos rfl,
      List.map_append, List.map_singleton, hown]
    congr 1
    refine List.map_congr_left fun b hb => overridden_congr fun _ => ?_
    rw [if_neg (lookup_eq_none_iff_forall_ne.mp hlookup b hb)]

/-- Bindings of a caller for distinct prefixes change namespaces in place, and those of
prefixes that are free come at the end. -/
theorem bindings_foldl_override {entries : Overrides} (h : DistinctPrefixes entries) :
    (entries.foldl override namespaces).bindings =
      namespaces.bindings.map (overridden fun p => entries.lookup p) ++
        entries.filter fun entry =>
          isOverridable entry.1 && (namespaces.bindings.lookup entry.1).isNone := by
  induction entries generalizing namespaces with
  | nil => simp [overridden_none]
  | cons entry rest ih =>
    obtain ⟨hfirst, hrest⟩ := (distinctPrefixes_cons entry).mp h
    simp only [lookup_cons_eq]
    rw [List.foldl_cons, ih _ hrest, bindings_override]
    split
    case isTrue hover =>
      rw [map_overridden_assign _ _ hover (lookup_eq_none_iff_forall_ne.mpr hfirst),
        List.append_assoc]
      congr 1
      have hfilter : (rest.filter fun e => isOverridable e.1 &&
            ((assign namespaces.bindings entry.1 entry.2).lookup e.1).isNone) =
          rest.filter fun e => isOverridable e.1 && (namespaces.bindings.lookup e.1).isNone := by
        refine List.filter_congr fun e he => ?_
        rw [lookup_assign, if_neg (hfirst e he)]
      rw [hfilter, List.filter_cons, hover, Bool.true_and]
      split <;> rfl
    case isFalse hnot =>
      rw [List.filter_cons_of_neg (by simp [hnot])]
      congr 1
      refine List.map_congr_left fun b _ => overridden_congr fun hover => ?_
      rw [if_neg fun hb : b.1 = entry.1 => hnot (hb ▸ hover)]

theorem lookup_override (entry : String × String) (p : String) :
    (namespaces.override entry).bindings.lookup p =
      if p = entry.1 ∧ isOverridable p = true then some entry.2
      else namespaces.bindings.lookup p := by
  rw [bindings_override]
  split
  case isTrue hover =>
    rw [lookup_assign]
    by_cases hp : p = entry.1
    · rw [if_pos hp, if_pos ⟨hp, hp ▸ hover⟩]
    · rw [if_neg hp, if_neg fun h => hp h.1]
  case isFalse hnot =>
    have hnot' : ¬(p = entry.1 ∧ isOverridable p = true) := fun h => hnot (h.1 ▸ h.2)
    rw [if_neg hnot']

theorem lookup_foldl_override {entries : Overrides} (h : DistinctPrefixes entries) (p : String) :
    (entries.foldl override namespaces).bindings.lookup p =
      if isOverridable p = true then (entries.lookup p).or (namespaces.bindings.lookup p)
      else namespaces.bindings.lookup p := by
  induction entries generalizing namespaces with
  | nil => simp
  | cons entry rest ih =>
    obtain ⟨hfirst, hrest⟩ := (distinctPrefixes_cons entry).mp h
    rw [List.foldl_cons, ih _ hrest, lookup_override, lookup_cons_eq]
    by_cases hp : p = entry.1
    · have hnone : rest.lookup p = none := lookup_eq_none_iff_forall_ne.mpr (hp ▸ hfirst)
      by_cases hover : isOverridable p = true
      · rw [if_pos hover, if_pos hover, if_pos ⟨hp, hover⟩, if_pos hp, hnone]
        rfl
      · rw [if_neg hover, if_neg hover, if_neg fun h => hover h.2]
    · have hskip : ¬(p = entry.1 ∧ isOverridable p = true) := fun h => hp h.1
      rw [if_neg hskip, if_neg hp]

end Override

/-- What the bindings of a caller make of the namespaces around a node. The empty prefix
stands for the default namespace, and the fixed prefixes keep theirs. -/
structure OverriddenBy (overrides : Overrides) (base result : Namespaces) : Prop where
  uriOf_xml : result.uriOf "xml" = xmlNamespace
  uriOf_xmlns : result.uriOf "xmlns" = Markup.xmlnsNamespace
  uriOf_eq : ∀ p, p ≠ "xml" → p ≠ "xmlns" →
    result.uriOf p = (overrides.get? p).getD (base.uriOf p)
  defaultUri_eq : result.defaultUri = (overrides.get? "").getD base.defaultUri
  bindings_eq : ∃ added : Overrides,
    result.bindings = base.bindings.map (overridden overrides.get?) ++ added ∧
      added.Ascending ∧
      ∀ p u, (p, u) ∈ added ↔ p ≠ "" ∧ p ≠ "xml" ∧ p ≠ "xmlns" ∧
        (∀ b ∈ base.bindings, b.1 ≠ p) ∧ overrides.get? p = some u
  distinctPrefixes : DistinctPrefixes result.bindings
  fixed_first : fixedBindings <+: result.bindings

theorem isOverridable_iff (p : String) :
    isOverridable p = true ↔ p ≠ "" ∧ p ≠ "xml" ∧ p ≠ "xmlns" := by
  simp [isOverridable, isFixed]

theorem mem_added_iff (entries bindings : List (String × String)) (h : DistinctPrefixes entries)
    (p u : String) :
    ((p, u) ∈ entries.filter fun entry =>
        isOverridable entry.1 && (bindings.lookup entry.1).isNone) ↔
      p ≠ "" ∧ p ≠ "xml" ∧ p ≠ "xmlns" ∧ (∀ b ∈ bindings, b.1 ≠ p) ∧
        entries.lookup p = some u := by
  rw [List.mem_filter, Bool.and_eq_true, isOverridable_iff, Option.isNone_iff_eq_none,
    lookup_eq_none_iff_forall_ne, h.lookup_eq_some_iff_mem]
  constructor
  · intro hmem
    obtain ⟨hentry, ⟨hempty, hxml, hxmlns⟩, hfree⟩ := hmem
    exact ⟨hempty, hxml, hxmlns, hfree, hentry⟩
  · intro hmem
    obtain ⟨hempty, hxml, hxmlns, hfree, hentry⟩ := hmem
    exact ⟨hentry, ⟨hempty, hxml, hxmlns⟩, hfree⟩

theorem fixedBindings_prefix_map (uris : String → Option String)
    (entries : List (String × String)) :
    fixedBindings <+: (fixedBindings ++ entries).map (overridden uris) := by
  refine ⟨entries.map (overridden uris), ?_⟩
  rw [List.map_append]
  rfl

theorem overriddenBy_withOverrides (tree : Tree) (node : Address) (overrides : Overrides) :
    OverriddenBy overrides (atNode tree node) (withOverrides tree node overrides) := by
  have hascending := overrides.ascending_sorted
  have hdistinct := hascending.distinctPrefixes
  have hlookup := lookup_foldl_override (atNode tree node) hdistinct
  have hbindings := bindings_foldl_override (atNode tree node) hdistinct
  have hdefault := defaultUri_foldl_override (atNode tree node) hdistinct
  have hadded := mem_added_iff overrides.sorted (atNode tree node).bindings hdistinct
  simp only [Overrides.lookup_sorted] at hlookup hbindings hdefault hadded
  obtain ⟨hxml, hxmlns⟩ := uriOf_fixed tree node
  refine ⟨?_, ?_, ?_, hdefault, ⟨_, hbindings, hascending.filter _, hadded⟩, ?_, ?_⟩
  · rw [← hxml, uriOf, uriOf, withOverrides, hlookup]
    rfl
  · rw [← hxmlns, uriOf, uriOf, withOverrides, hlookup]
    rfl
  · intro p hnotXml hnotXmlns
    rw [uriOf, uriOf]
    by_cases hempty : p = ""
    · rw [if_pos hempty, if_pos hempty, hempty]
      exact hdefault
    · have hover : isOverridable p = true := (isOverridable_iff p).mpr ⟨hempty, hnotXml, hnotXmlns⟩
      rw [if_neg hempty, if_neg hempty, withOverrides, hlookup, if_pos hover]
      cases overrides.get? p <;> rfl
  · exact distinctPrefixes_foldl_override _ (distinctPrefixes_atNode tree node) _
  · rw [withOverrides, hbindings, bindings_atNode]
    exact (fixedBindings_prefix_map _ _).trans (List.prefix_append _ _)

/-- The namespaces around a node with the bindings of a caller. They depend on what the
caller binds each prefix to, in whatever order, and are those of the node alone if the
caller binds nothing. -/
theorem withOverrides_exact (tree : Tree) (node : Address) (overrides : Overrides) :
    OverriddenBy overrides (atNode tree node) (withOverrides tree node overrides) ∧
    (∀ others : Overrides, (∀ p, others.get? p = overrides.get? p) →
      withOverrides tree node others = withOverrides tree node overrides) ∧
    (∀ others : Overrides, DistinctPrefixes overrides → others.Perm overrides →
      withOverrides tree node others = withOverrides tree node overrides) ∧
    withOverrides tree node [] = atNode tree node := by
  have hsame : ∀ others : Overrides, (∀ p, others.get? p = overrides.get? p) →
      withOverrides tree node others = withOverrides tree node overrides := by
    intro others h
    rw [withOverrides, withOverrides, Overrides.sorted_congr h]
  refine ⟨overriddenBy_withOverrides tree node overrides, hsame, ?_, rfl⟩
  intro others hdistinct hperm
  exact hsame others (Overrides.get?_perm hdistinct hperm)

/-- A bound prefix keeps its place, a free one comes at the end, and a fixed one is left out. -/
example :
    let overrides : Overrides := [("z", "u"), ("xml", "u"), ("q", "v")]
    (overrides.sorted.foldl override ⟨fixedBindings ++ [("q", "w"), ("p", "w")], ""⟩).bindings =
      fixedBindings ++ [("q", "v"), ("p", "w"), ("z", "u")] := by decide

end Namespaces

end XPathQuery
