import XPathQuery.Namespaces
import Mathlib.Data.List.Nodup

/-!
Lists of bindings. A list without repeated prefixes is known, up to its order, from the
namespaces that it gives to prefixes. The bindings declared around a node are such a
list: the fixed ones, and then of the other prefixes the first binding of each.
-/
namespace XPathQuery.Namespaces

def DistinctPrefixes (bindings : List (String × String)) : Prop := (bindings.map Prod.fst).Nodup

section Lookup
variable {bindings others : List (String × String)} {p u : String}

theorem lookup_cons_eq (entry : String × String) (p : String) :
    (entry :: bindings).lookup p = if p = entry.1 then some entry.2 else bindings.lookup p := by
  rw [List.lookup_cons]
  split
  · next h => rw [if_pos (eq_of_beq h)]
  · next h => rw [if_neg (ne_of_beq_false h)]

theorem lookup_eq_none_iff_forall_ne : bindings.lookup p = none ↔ ∀ b ∈ bindings, b.1 ≠ p := by
  simp only [List.lookup_eq_none_iff, bne_iff_ne, ne_comm]

theorem any_eq_isSome_lookup (bindings : List (String × String)) (p : String) :
    bindings.any (·.1 == p) = (bindings.lookup p).isSome := by
  rw [Bool.eq_iff_iff, List.lookup_isSome_iff, List.any_eq_true]
  simp only [BEq.comm]

theorem mem_of_lookup (h : bindings.lookup p = some u) : (p, u) ∈ bindings := by
  obtain ⟨before, rest, rfl, -⟩ := List.lookup_eq_some_iff.mp h
  simp

theorem distinctPrefixes_cons (entry : String × String) :
    DistinctPrefixes (entry :: bindings) ↔
      (∀ b ∈ bindings, b.1 ≠ entry.1) ∧ DistinctPrefixes bindings := by
  simp only [DistinctPrefixes, List.map_cons, List.nodup_cons, List.mem_map, not_exists, not_and,
    ne_eq]

theorem DistinctPrefixes.lookup_of_mem (h : DistinctPrefixes bindings) (hmem : (p, u) ∈ bindings) :
    bindings.lookup p = some u := by
  induction bindings with
  | nil => cases hmem
  | cons entry rest ih =>
    obtain ⟨hfirst, hrest⟩ := (distinctPrefixes_cons entry).mp h
    rw [lookup_cons_eq]
    rcases List.mem_cons.mp hmem with rfl | hmem
    · rw [if_pos rfl]
    · rw [if_neg (hfirst _ hmem), ih hrest hmem]

theorem DistinctPrefixes.lookup_eq_some_iff_mem (h : DistinctPrefixes bindings) :
    bindings.lookup p = some u ↔ (p, u) ∈ bindings :=
  ⟨mem_of_lookup, h.lookup_of_mem⟩

/-- Bindings that agree on every prefix differ in their order alone. -/
theorem DistinctPrefixes.perm_of_lookup_eq (h : DistinctPrefixes bindings)
    (h' : DistinctPrefixes others) (hsame : ∀ p, bindings.lookup p = others.lookup p) :
    bindings.Perm others := by
  refine (List.perm_ext_iff_of_nodup (List.Nodup.of_map _ h) (List.Nodup.of_map _ h')).mpr ?_
  intro entry
  rw [← h.lookup_eq_some_iff_mem, ← h'.lookup_eq_some_iff_mem, hsame]

theorem lookup_filter_prefix (keep : String → Bool) (bindings : List (String × String))
    (p : String) :
    (bindings.filter fun b => keep b.1).lookup p = if keep p then bindings.lookup p else none := by
  induction bindings with
  | nil => simp
  | cons entry rest ih =>
    rw [lookup_cons_eq]
    by_cases hp : p = entry.1
    · subst hp
      rw [if_pos rfl]
      cases hkeep : keep entry.1 with
      | true => simp [hkeep, lookup_cons_eq]
      | false => simp [hkeep, ih]
    · rw [if_neg hp, ← ih, List.filter_cons]
      split
      · rw [lookup_cons_eq, if_neg hp]
      · rfl

theorem lookup_map_uri (f : String × String → String) (bindings : List (String × String))
    (p : String) :
    (bindings.map fun b => (b.1, f b)).lookup p = (bindings.lookup p).map fun u => f (p, u) := by
  induction bindings with
  | nil => rfl
  | cons entry rest ih =>
    rw [List.map_cons, lookup_cons_eq, lookup_cons_eq, ih]
    by_cases hp : p = entry.1
    · rw [if_pos hp, if_pos hp, hp, Option.map_some]
    · rw [if_neg hp, if_neg hp]

end Lookup

def firstOfEach : List (String × String) → List (String × String)
  | [] => []
  | entry :: rest => entry :: (firstOfEach rest).filter fun b => b.1 != entry.1

theorem mem_of_mem_firstOfEach {entries : List (String × String)} {b : String × String}
    (h : b ∈ firstOfEach entries) : b ∈ entries := by
  induction entries with
  | nil => exact h
  | cons entry rest ih =>
    rcases List.mem_cons.mp h with rfl | h
    · exact List.mem_cons_self
    · exact List.mem_cons_of_mem _ (ih (List.mem_filter.mp h).1)

theorem distinctPrefixes_firstOfEach (entries : List (String × String)) :
    DistinctPrefixes (firstOfEach entries) := by
  induction entries with
  | nil => exact List.nodup_nil
  | cons entry rest ih =>
    refine (distinctPrefixes_cons entry).mpr ⟨?_, ?_⟩
    · intro b hb
      simpa using (List.mem_filter.mp hb).2
    · exact List.Nodup.sublist (List.filter_sublist.map _) ih

/-- The first bindings are the ones that count. -/
theorem lookup_firstOfEach (entries : List (String × String)) (p : String) :
    (firstOfEach entries).lookup p = entries.lookup p := by
  induction entries with
  | nil => rfl
  | cons entry rest ih =>
    have hfilter := lookup_filter_prefix (fun q => q != entry.1) (firstOfEach rest) p
    rw [firstOfEach, lookup_cons_eq, lookup_cons_eq, hfilter, ih]
    by_cases hp : p = entry.1 <;> simp [hp]

/-- The binding that a declaration makes where its prefix is free, unless it is for names
without a prefix or for a fixed prefix. -/
def bindingOf? (d : Declaration) : Option (String × String) :=
  d.nsPrefix.bind fun p => if isFixed p then none else some (p, d.uri)

theorem bindingOf?_eq_some {d : Declaration} {entry : String × String}
    (h : bindingOf? d = some entry) :
    d = ⟨some entry.1, entry.2⟩ ∧ isFixed entry.1 = false := by
  obtain ⟨nsPrefix, uri⟩ := d
  obtain ⟨p, rfl, h⟩ := Option.bind_eq_some_iff.mp h
  split at h
  · cases h
  · next hfixed =>
    obtain rfl := Option.some.inj h
    exact ⟨rfl, Bool.eq_false_iff.mpr hfixed⟩

theorem declare_of_none {bindings : List (String × String)} {d : Declaration}
    (h : bindingOf? d = none) : declare bindings d = bindings := by
  unfold bindingOf? at h
  unfold declare
  cases hp : d.nsPrefix with
  | none => rfl
  | some p => simp_all

theorem declare_of_some {bindings : List (String × String)} {d : Declaration}
    {entry : String × String} (h : bindingOf? d = some entry) :
    declare bindings d =
      if bindings.any (·.1 == entry.1) then bindings else bindings ++ [entry] := by
  obtain ⟨rfl, hfixed⟩ := bindingOf?_eq_some h
  simp only [declare, hfixed, Bool.false_or]

/-- Declarations add the first binding of each prefix that is not bound yet. Once a prefix is
bound, its later bindings change nothing. -/
theorem foldl_declare (bindings : List (String × String)) (ds : List Declaration) :
    ds.foldl declare bindings =
      bindings ++ (firstOfEach (ds.filterMap bindingOf?)).filter
        fun b => !bindings.any (·.1 == b.1) := by
  induction ds generalizing bindings with
  | nil => simp [firstOfEach]
  | cons d rest ih =>
    rw [List.foldl_cons, ih]
    cases hd : bindingOf? d with
    | none => rw [declare_of_none hd, List.filterMap_cons_none hd]
    | some entry =>
      rw [declare_of_some hd, List.filterMap_cons_some hd, firstOfEach]
      split
      case isTrue hbound =>
        rw [List.filter_cons_of_neg (by simpa using hbound), List.filter_filter]
        congr 1
        refine List.filter_congr fun b _ => ?_
        by_cases hb : b.1 = entry.1
        · simp [hb, hbound]
        · simp [hb]
      case isFalse hfree =>
        replace hfree := Bool.eq_false_iff.mpr hfree
        rw [List.filter_cons_of_pos (by simp only [hfree, Bool.not_false]), List.filter_filter,
          List.append_assoc, List.singleton_append]
        congr 2
        refine List.filter_congr fun b _ => ?_
        rw [List.any_append, List.any_cons, List.any_nil, Bool.or_false, Bool.not_or, BEq.comm]
        rfl

theorem some_ne_xml {p : String} (h : isFixed p = false) : some p ≠ some "xml" := by
  rintro heq
  obtain rfl := Option.some.inj heq
  cases h

theorem any_fixedBindings (p : String) : fixedBindings.any (·.1 == p) = isFixed p := by
  simp [fixedBindings, isFixed, BEq.comm]

theorem exists_lookup_fixedBindings {p : String} (h : isFixed p = true) :
    ∃ u, fixedBindings.lookup p = some u := by
  rw [← any_fixedBindings, any_eq_isSome_lookup] at h
  exact Option.isSome_iff_exists.mp h

/-- The bindings around a node are the fixed ones, and then the first of each prefix. -/
theorem bindings_atNode (tree : Tree) (node : Address) :
    (atNode tree node).bindings =
      fixedBindings ++ firstOfEach ((tree.declarationsAround node).filterMap bindingOf?) := by
  have hdeclare := foldl_declare fixedBindings (tree.declarationsAround node)
  refine hdeclare.trans (congrArg (fixedBindings ++ ·) ?_)
  refine List.filter_eq_self.mpr fun b hb => ?_
  obtain ⟨d, -, hd⟩ := List.mem_filterMap.mp (mem_of_mem_firstOfEach hb)
  rw [any_fixedBindings, (bindingOf?_eq_some hd).2]
  rfl

/-- The fixed prefixes come first, and no other entry has one. -/
theorem distinctPrefixes_fixed_append {entries : List (String × String)}
    (h : ∀ b ∈ entries, isFixed b.1 = false) :
    DistinctPrefixes (fixedBindings ++ firstOfEach entries) := by
  rw [DistinctPrefixes, List.map_append]
  refine List.Nodup.append (by decide) (distinctPrefixes_firstOfEach entries) ?_
  intro p hfixed hp
  obtain ⟨b, hb, rfl⟩ := List.mem_map.mp hp
  have hnot := h b (mem_of_mem_firstOfEach hb)
  obtain ⟨c, hc, hcb⟩ := List.mem_map.mp hfixed
  rw [← any_fixedBindings, List.any_eq_false] at hnot
  exact hnot c hc (beq_iff_eq.mpr hcb)

theorem distinctPrefixes_atNode (tree : Tree) (node : Address) :
    DistinctPrefixes (atNode tree node).bindings := by
  rw [bindings_atNode]
  refine distinctPrefixes_fixed_append fun b hb => ?_
  obtain ⟨d, -, hd⟩ := List.mem_filterMap.mp hb
  exact (bindingOf?_eq_some hd).2

end XPathQuery.Namespaces
