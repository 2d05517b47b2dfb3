import XPathQuery.Proofs.OverriddenBindings
import XPathQuery.Selection.Query

/-!
Lookup of namespaces by prefix and of prefixes by namespace. Each prefix is bound once and
the empty one, which stands for the default namespace, is not bound at all: the bindings
around a node are like that, and a binding of a caller keeps them so. A prefix that is
found for a namespace then has that namespace, and a prefix that is the only one of its
namespace is found again.
-/
namespace XPathQuery

def Tree.PrefixesNamed (tree : Tree) : Prop :=
  ∀ node, ∀ d ∈ tree.declarationsOf node, d.nsPrefix ≠ some ""

theorem Tree.prefixesNamed_iff_addresses (tree : Tree) :
    tree.PrefixesNamed ↔
      ∀ node ∈ tree.addresses, ∀ d ∈ tree.declarationsOf node, d.nsPrefix ≠ some "" := by
  constructor
  · intro h node _ d hd
    exact h node d hd
  · intro h node d hd
    refine h node ?_ d hd
    rw [mem_addresses]
    cases hnode : tree.at? node with
    | some t => exact ⟨t, rfl⟩
    | none => simp [declarationsOf, label?, hnode] at hd

instance (tree : Tree) : Decidable tree.PrefixesNamed :=
  decidable_of_iff _ tree.prefixesNamed_iff_addresses.symm

namespace Namespaces

structure Keyed (namespaces : Namespaces) : Prop where
  distinct : DistinctPrefixes namespaces.bindings
  named : ∀ b ∈ namespaces.bindings, b.1 ≠ ""

theorem keyed_atNode {tree : Tree} (h : tree.PrefixesNamed) (node : Address) :
    (atNode tree node).Keyed := by
  refine ⟨distinctPrefixes_atNode tree node, fun b hb => ?_⟩
  rw [bindings_atNode, List.mem_append] at hb
  rcases hb with hb | hb
  · have hfixed : ∀ b ∈ fixedBindings, b.1 ≠ "" := by decide
    exact hfixed b hb
  · obtain ⟨d, hd, hbinding⟩ := List.mem_filterMap.mp (mem_of_mem_firstOfEach hb)
    obtain ⟨above, -, hd⟩ := List.mem_flatMap.mp hd
    obtain ⟨rfl, -⟩ := bindingOf?_eq_some hbinding
    intro hempty
    exact h above _ hd (congrArg some hempty)

theorem mem_of_mem_assign {bindings : List (String × String)} {p u : String}
    {b : String × String} (h : b ∈ assign bindings p u) : b = (p, u) ∨ b ∈ bindings := by
  unfold assign at h
  split at h
  · obtain ⟨c, hc, rfl⟩ := List.mem_map.mp h
    split
    · exact Or.inl rfl
    · exact Or.inr hc
  · rcases List.mem_append.mp h with h | h
    · exact Or.inr h
    · exact Or.inl (List.mem_singleton.mp h)

section Keyed
variable {namespaces : Namespaces} {uri p : String}

theorem Keyed.override (h : namespaces.Keyed) (entry : String × String) :
    (namespaces.override entry).Keyed := by
  refine ⟨distinctPrefixes_foldl_override namespaces h.distinct [entry], fun b hb => ?_⟩
  rw [bindings_override] at hb
  split at hb
  case isTrue hover =>
    rcases mem_of_mem_assign hb with rfl | hb
    · exact ((isOverridable_iff entry.1).mp hover).1
    · exact h.named b hb
  case isFalse => exact h.named b hb

theorem Keyed.foldl_override (h : namespaces.Keyed) (entries : Overrides) :
    (entries.foldl Namespaces.override namespaces).Keyed := by
  induction entries generalizing namespaces with
  | nil => exact h
  | cons entry rest ih => exact ih (h.override entry)

theorem keyed_withOverrides {tree : Tree} (h : tree.PrefixesNamed) (node : Address)
    (overrides : Overrides) : (withOverrides tree node overrides).Keyed :=
  (keyed_atNode h node).foldl_override overrides.sorted

/-- A bound prefix has the namespace that it is bound to. -/
theorem Keyed.uriOf_eq (h : namespaces.Keyed) (hmem : (p, uri) ∈ namespaces.bindings) :
    namespaces.uriOf p = uri := by
  rw [uriOf, if_neg (h.named _ hmem), h.distinct.lookup_of_mem hmem]
  rfl

theorem prefixOf?_eq_some (h : namespaces.prefixOf? uri = some p) :
    (p = "" ∧ uri = namespaces.defaultUri) ∨ (p, uri) ∈ namespaces.bindings := by
  unfold prefixOf? at h
  split at h
  case isTrue hdefault => exact Or.inl ⟨(Option.some.inj h).symm, hdefault⟩
  case isFalse =>
    obtain ⟨b, hb, rfl⟩ := Option.map_eq_some_iff.mp h
    have huri : b.2 = uri := by simpa using List.find?_some hb
    rw [← huri]
    exact Or.inr (List.mem_of_find?_eq_some hb)

theorem prefixOf?_eq_none_iff :
    namespaces.prefixOf? uri = none ↔
      uri ≠ namespaces.defaultUri ∧ ∀ b ∈ namespaces.bindings, b.2 ≠ uri := by
  unfold prefixOf?
  split
  case isTrue hdefault => simp [hdefault]
  case isFalse hother => simp [hother]

/-- The prefix that is found for a namespace has that namespace. -/
theorem Keyed.uriOf_prefixOf? (h : namespaces.Keyed) (hfound : namespaces.prefixOf? uri = some p) :
    namespaces.uriOf p = uri := by
  rcases prefixOf?_eq_some hfound with ⟨rfl, rfl⟩ | hmem
  · exact if_pos rfl
  · exact h.uriOf_eq hmem

/-- The only prefix of a namespace is found for it. -/
theorem prefixOf?_of_unique (hmem : (p, uri) ∈ namespaces.bindings)
    (hdefault : uri ≠ namespaces.defaultUri)
    (hunique : ∀ b ∈ namespaces.bindings, b.2 = uri → b.1 = p) :
    namespaces.prefixOf? uri = some p := by
  cases hfound : namespaces.prefixOf? uri with
  | none => exact absurd rfl ((prefixOf?_eq_none_iff.mp hfound).2 _ hmem)
  | some q =>
    rcases prefixOf?_eq_some hfound with ⟨-, huri⟩ | hq
    · exact absurd huri hdefault
    · rw [← hunique _ hq rfl]

end Keyed

/-- The answers to questions by prefix and by namespace fit together. Every namespace has
an answer: one prefix, which has that namespace, or none, if the namespace is not the
default one and no prefix is bound to it. -/
structure LookupsAgree (namespaces : Namespaces) : Prop where
  answered : ∀ uri, ∃ found, namespaces.prefixQuery (some uri) = .ok found ∧
    namespaces.prefixesQuery (some uri) = .ok found.toList
  found : ∀ uri p, namespaces.prefixQuery (some uri) = .ok (some p) →
    namespaces.uriQuery (some p) = .ok uri ∧ (p = "" ∨ (p, uri) ∈ namespaces.bindings)
  missing : ∀ uri, namespaces.prefixQuery (some uri) = .ok none →
    uri ≠ namespaces.defaultUri ∧ ∀ b ∈ namespaces.bindings, b.2 ≠ uri
  unique : ∀ p uri, (p, uri) ∈ namespaces.bindings → uri ≠ namespaces.defaultUri →
    (∀ b ∈ namespaces.bindings, b.2 = uri → b.1 = p) →
    namespaces.uriQuery (some p) = .ok uri ∧ namespaces.prefixQuery (some uri) = .ok (some p)

theorem Keyed.lookupsAgree {namespaces : Namespaces} (h : namespaces.Keyed) :
    namespaces.LookupsAgree := by
  constructor
  · intro uri
    exact ⟨namespaces.prefixOf? uri, rfl, rfl⟩
  · intro uri p hfound
    have hprefix : namespaces.prefixOf? uri = some p := Except.ok.inj hfound
    exact ⟨congrArg Except.ok (h.uriOf_prefixOf? hprefix),
      (prefixOf?_eq_some hprefix).imp_left And.left⟩
  · intro uri hmissing
    exact prefixOf?_eq_none_iff.mp (Except.ok.inj hmissing)
  · intro p uri hmem hdefault hunique
    exact ⟨congrArg Except.ok (h.uriOf_eq hmem),
      congrArg Except.ok (prefixOf?_of_unique hmem hdefault hunique)⟩

/-- Lookup by prefix and by namespace agree around every node, with and without bindings of
a caller. -/
theorem lookupsAgree_around (tree : Tree) (h : tree.PrefixesNamed) (node : Address)
    (overrides : Overrides) :
    (atNode tree node).LookupsAgree ∧ (withOverrides tree node overrides).LookupsAgree :=
  ⟨(keyed_atNode h node).lookupsAgree, (keyed_withOverrides h node overrides).lookupsAgree⟩

/-- Inside an element that binds one of two prefixes of a namespace anew, with a caller who
binds a third prefix and the default namespace. -/
theorem lookupsAgree_around_shadowed :
    let element := fun declarations => Tree.node ⟨.element, none, none, "", declarations⟩ []
    let tree := element [⟨none, "d"⟩, ⟨some "p", "u"⟩, ⟨some "q", "u"⟩]
      [element [⟨some "p", "v"⟩, ⟨some "q", "u"⟩] []]
    let top := Tree.node ⟨.root, none, none, "", []⟩ [] [tree]
    let namespaces := withOverrides top [.child 0, .child 0] [("r", "v"), ("", "e")]
    top.PrefixesNamed ∧
      namespaces.prefixQuery (some "v") = .ok (some "p") ∧
      namespaces.uriQuery (some "p") = .ok "v" ∧
      namespaces.uriQuery (some "q") = .ok "u" ∧
      namespaces.prefixQuery (some "u") = .ok (some "q") ∧
      namespaces.prefixQuery (some "d") = .ok none ∧
      ∀ b ∈ namespaces.bindings, b.2 ≠ "d" := by
  intro element tree top namespaces
  have hnamed : top.PrefixesNamed := by decide +kernel
  obtain ⟨-, hagree⟩ :=
    lookupsAgree_around top hnamed [.child 0, .child 0] [("r", "v"), ("", "e")]
  have hfirst : namespaces.prefixQuery (some "v") = .ok (some "p") := by decide +kernel
  have hnone : namespaces.prefixQuery (some "d") = .ok none := by decide +kernel
  obtain ⟨hp, -⟩ := hagree.found "v" "p" hfirst
  obtain ⟨hq, hfound⟩ := hagree.unique "q" "u" (by decide +kernel) (by decide +kernel)
    (by decide +kernel)
  exact ⟨hnamed, hfirst, hp, hq, hfound, hnone, (hagree.missing "d" hnone).2⟩

end Namespaces

end XPathQuery
