import XPathQuery.Namespaces
import XPathQuery.Markup.Document

/-!
Scopes as functions from prefixes to namespaces. A scope is searched for its first
entry, so an element's own declarations hide those around it. The entries that an
element does not share with its parent are enough to find every namespace again, as
long as the entries of one prefix agree; the prefixes that an element declares always
do, since none is declared twice.
-/
namespace XPathQuery.Markup

namespace Scope

variable {scope own outer : Scope} {p : Option String} {u : String}

theorem uri?_nil (p : Option String) : Scope.uri? [] p = none := rfl

theorem uri?_append (first second : Scope) (p : Option String) :
    Scope.uri? (first ++ second) p = (first.uri? p).or (second.uri? p) := by
  simp only [uri?, List.find?_append, Option.map_or]

theorem uri?_eq_none_iff : scope.uri? p = none ↔ ∀ d ∈ scope, d.nsPrefix ≠ p := by
  simp [uri?]

theorem mem_of_uri? (h : scope.uri? p = some u) : ⟨p, u⟩ ∈ scope := by
  obtain ⟨d, hd, rfl⟩ := Option.map_eq_some_iff.mp h
  have hp : d.nsPrefix = p := by simpa using List.find?_some hd
  subst hp
  exact List.mem_of_find?_eq_some hd

theorem declares_eq_false_iff : scope.declares p = false ↔ ∀ d ∈ scope, d.nsPrefix ≠ p := by
  simp [declares]

theorem uri?_extend (scope : Scope) (d : Declaration) (p : Option String) :
    (scope.extend d).uri? p = (scope.uri? p).or (Scope.uri? [d] p) := by
  rw [extend]
  split
  case isFalse => rw [uri?_append]
  case isTrue h =>
    by_cases hp : d.nsPrefix = p
    · subst hp
      have hsome : (scope.uri? d.nsPrefix).isSome := by
        simpa [declares, uri?] using h
      rw [Option.or_of_isSome hsome]
    · have hnone : Scope.uri? [d] p = none := uri?_eq_none_iff.mpr (by simpa using hp)
      rw [hnone, Option.or_none]

theorem uri?_foldl_extend (own outer : Scope) (p : Option String) :
    (List.foldl extend own outer).uri? p = (own.uri? p).or (outer.uri? p) := by
  induction outer generalizing own with
  | nil => simp [uri?_nil]
  | cons d outer ih =>
    rw [List.foldl_cons, ih, uri?_extend, Option.or_assoc, ← uri?_append, List.singleton_append]

/-- Own declarations hide those around them. -/
theorem uri?_inside (own outer : Scope) (p : Option String) :
    (own.inside outer).uri? p = (own.uri? p).or (outer.uri? p) := by
  rw [inside]
  split
  case isTrue h =>
    rw [List.isEmpty_iff.mp h, uri?_nil, Option.none_or]
  case isFalse => exact uri?_foldl_extend own outer p

theorem mem_of_mem_foldl_extend {d : Declaration} (h : d ∈ List.foldl extend own outer) :
    d ∈ own ∨ d ∈ outer ∧ own.declares d.nsPrefix = false := by
  induction outer generalizing own with
  | nil => exact Or.inl h
  | cons e outer ih =>
    rw [List.foldl_cons] at h
    have hkept : ∀ q, (own.extend e).declares q = false → own.declares q = false := by
      intro q hq
      rw [declares_eq_false_iff] at hq ⊢
      intro c hc
      refine hq c ?_
      unfold extend
      split
      · exact hc
      · exact List.mem_append_left _ hc
    rcases ih h with hd | ⟨hd, hnot⟩
    · unfold extend at hd
      split at hd
      case isTrue => exact Or.inl hd
      case isFalse hnot =>
        rcases List.mem_append.mp hd with hd | hd
        · exact Or.inl hd
        · obtain rfl := List.mem_singleton.mp hd
          exact Or.inr ⟨List.mem_cons_self, Bool.eq_false_iff.mpr hnot⟩
    · exact Or.inr ⟨List.mem_cons_of_mem e hd, hkept _ hnot⟩

/-- Nothing comes into a scope but own declarations and those they do not replace. -/
theorem mem_of_mem_inside {d : Declaration} (h : d ∈ own.inside outer) :
    d ∈ own ∨ d ∈ outer ∧ own.declares d.nsPrefix = false := by
  rw [inside] at h
  split at h
  case isTrue hnil =>
    rw [List.isEmpty_iff.mp hnil]
    exact Or.inr ⟨h, rfl⟩
  case isFalse => exact mem_of_mem_foldl_extend h

def Agrees (scope : Scope) (p : Option String) : Prop :=
  ∀ d ∈ scope, ∀ e ∈ scope, d.nsPrefix = p → e.nsPrefix = p → d.uri = e.uri

theorem agrees_nil (p : Option String) : Agrees [] p := by
  simp [Agrees]

theorem Agrees.uri?_eq (h : scope.Agrees p) (hmem : ⟨p, u⟩ ∈ scope) : scope.uri? p = some u := by
  cases hfound : scope.uri? p with
  | none => exact absurd rfl (uri?_eq_none_iff.mp hfound _ hmem)
  | some v =>
    have hv : v = u := h _ (mem_of_uri? hfound) _ hmem rfl rfl
    rw [hv]

theorem Agrees.inside (hown : own.Agrees p) (houter : outer.Agrees p) :
    (own.inside outer).Agrees p := by
  intro d hd e he hdp hep
  rcases mem_of_mem_inside hd with hd | ⟨hd, hdnot⟩ <;>
    rcases mem_of_mem_inside he with he | ⟨he, henot⟩
  · exact hown d hd e he hdp hep
  · exact absurd (hdp.trans hep.symm) (declares_eq_false_iff.mp henot d hd)
  · exact absurd (hep.trans hdp.symm) (declares_eq_false_iff.mp hdnot e he)
  · exact houter d hd e he hdp hep

/-- Adding at most one declaration keeps a prefix in agreement if it was not declared. -/
theorem Agrees.append {added : Option Declaration} (hown : own.Agrees p)
    (hadded : ∀ d ∈ added.toList, d.nsPrefix = p → own.declares p = false) :
    Agrees (own ++ added.toList) p := by
  intro d hd e he hdp hep
  rcases List.mem_append.mp hd with hd | hd <;> rcases List.mem_append.mp he with he | he
  · exact hown d hd e he hdp hep
  · exact absurd hdp (declares_eq_false_iff.mp (hadded e he hep) d hd)
  · exact absurd hep (declares_eq_false_iff.mp (hadded d hd hdp) e he)
  · have heq : some d = some e := (Option.mem_toList.mp hd).symm.trans (Option.mem_toList.mp he)
    rw [Option.some.inj heq]

/-- What an element does not share with its parent, searched before the parent's scope,
gives every namespace of the element's own scope. -/
theorem Agrees.uri?_unshared (hown : own.Agrees p) (houter : outer.Agrees p) :
    (Scope.uri? ((own.inside outer).filter fun d => !outer.contains d) p).or (outer.uri? p) =
      (own.inside outer).uri? p := by
  have hinside := hown.inside houter
  cases hfound : (own.inside outer).uri? p with
  | none =>
    have hnone : Scope.uri? ((own.inside outer).filter fun d => !outer.contains d) p = none :=
      uri?_eq_none_iff.mpr fun d hd =>
        uri?_eq_none_iff.mp hfound d (List.mem_filter.mp hd).1
    rw [uri?_inside, Option.or_eq_none_iff] at hfound
    rw [hnone, hfound.2, Option.or_none]
  | some u =>
    have hmem := mem_of_uri? hfound
    by_cases hshared : (⟨p, u⟩ : Declaration) ∈ outer
    · have hnone : Scope.uri? ((own.inside outer).filter fun d => !outer.contains d) p = none := by
        refine uri?_eq_none_iff.mpr fun d hd hp => ?_
        have hd' := List.mem_filter.mp hd
        have hu : d.uri = u := hinside d hd'.1 _ hmem hp rfl
        have heq : d = ⟨p, u⟩ := by
          cases d
          simp_all
        simp [heq, hshared] at hd'
      rw [hnone, Option.none_or, houter.uri?_eq hshared]
    · have hleft : Agrees ((own.inside outer).filter fun d => !outer.contains d) p :=
        fun d hd e he => hinside d (List.mem_filter.mp hd).1 e (List.mem_filter.mp he).1
      rw [hleft.uri?_eq (List.mem_filter.mpr ⟨hmem, by simpa using hshared⟩), Option.some_or]

end Scope

/-- Whether an attribute is written to declare a prefix, or names without one. Any
attribute named xmlns does the latter, whatever its prefix. -/
def WrittenAttribute.declares (a : WrittenAttribute) : Option String → Bool
  | some p => a.name.nsPrefix == "xmlns" && a.name.localPart == p
  | none => a.name.nsPrefix != "xmlns" && a.name.localPart == "xmlns"

theorem WrittenAttribute.declaration?_eq_some_iff (a : WrittenAttribute) (d : Declaration) :
    a.declaration? = some d ↔
      d.nsPrefix ≠ some "xml" ∧ a.declares d.nsPrefix = true ∧ a.value = d.uri := by
  obtain ⟨⟨nsPrefix, localPart⟩, value⟩ := a
  obtain ⟨p, u⟩ := d
  cases p <;> simp only [declaration?, declares] <;> grind

theorem WrittenAttribute.declaration?_of_not_isDeclaration {a : WrittenAttribute}
    (h : ¬ a.isDeclaration = true) : a.declaration? = none := by
  simp only [isDeclaration, Bool.or_eq_true, not_or] at h
  simp [declaration?, h]

namespace Scope

def written (attributes : List WrittenAttribute) : Scope :=
  attributes.filterMap WrittenAttribute.declaration?

theorem written_cons (a : WrittenAttribute) (attributes : List WrittenAttribute) :
    written (a :: attributes) = a.declaration?.toList ++ written attributes := by
  simp only [written, List.filterMap_cons]
  cases a.declaration? <;> rfl

theorem mem_written (attributes : List WrittenAttribute) (d : Declaration) :
    d ∈ written attributes ↔
      ∃ a ∈ attributes, d.nsPrefix ≠ some "xml" ∧ a.declares d.nsPrefix = true ∧
        a.value = d.uri := by
  simp only [written, List.mem_filterMap, WrittenAttribute.declaration?_eq_some_iff]

theorem uri?_declaration (a : WrittenAttribute) (p : Option String) (hp : p ≠ some "xml") :
    Scope.uri? a.declaration?.toList p = if a.declares p then some a.value else none := by
  split
  case isTrue h =>
    rw [(a.declaration?_eq_some_iff ⟨p, a.value⟩).mpr ⟨hp, h, rfl⟩]
    simp [uri?]
  case isFalse h =>
    refine uri?_eq_none_iff.mpr fun d hd hdp => h ?_
    have hd := (a.declaration?_eq_some_iff d).mp (Option.mem_toList.mp hd)
    exact hdp ▸ hd.2.1

/-- A prefix other than xml has the namespace of the first attribute that declares it. -/
theorem uri?_written (attributes : List WrittenAttribute) (p : Option String)
    (hp : p ≠ some "xml") :
    (written attributes).uri? p =
      (attributes.find? (·.declares p)).map WrittenAttribute.value := by
  induction attributes with
  | nil => rfl
  | cons a attributes ih =>
    rw [written_cons, uri?_append, uri?_declaration a p hp, ih, List.find?_cons]
    cases a.declares p <;> rfl

theorem agrees_written (attributes : List WrittenAttribute) (p : Option String)
    (h : ∀ a ∈ attributes, ∀ b ∈ attributes, a.declares p = true → b.declares p = true →
      a.value = b.value) : (written attributes).Agrees p := by
  intro d hd e he hdp hep
  obtain ⟨a, ha, _, hadeclares, hda⟩ := (mem_written attributes d).mp hd
  obtain ⟨b, hb, _, hbdeclares, heb⟩ := (mem_written attributes e).mp he
  rw [← hda, ← heb]
  exact h a ha b hb (hdp ▸ hadeclares) (hep ▸ hbdeclares)

theorem ofAttributes?_eq (attributes : List WrittenAttribute)
    (h : ofAttributes? own attributes = some scope) : scope = own ++ written attributes := by
  induction attributes generalizing own with
  | nil =>
    obtain rfl := Option.some.inj h
    simp [written]
  | cons a attributes ih =>
    rw [ofAttributes?] at h
    rw [written_cons]
    split at h
    case isTrue =>
      split at h
      case isTrue => rw [ih h, List.append_assoc]
      case isFalse => cases h
    case isFalse hnot =>
      rw [WrittenAttribute.declaration?_of_not_isDeclaration hnot]
      exact ih h

/-- No prefix is declared twice on an element. -/
theorem agrees_of_ofAttributes? (attributes : List WrittenAttribute)
    (h : ofAttributes? own attributes = some scope) (q : String) (hown : own.Agrees (some q)) :
    scope.Agrees (some q) := by
  induction attributes generalizing own with
  | nil =>
    obtain rfl := Option.some.inj h
    exact hown
  | cons a attributes ih =>
    rw [ofAttributes?] at h
    split at h
    case isFalse => exact ih h hown
    case isTrue =>
      split at h
      case isFalse => cases h
      case isTrue hallowed =>
        refine ih h (hown.append fun d hd hq => ?_)
        obtain ⟨-, hdeclares, -⟩ := (a.declaration?_eq_some_iff d).mp (Option.mem_toList.mp hd)
        rw [hq] at hdeclares
        simp_all [WrittenAttribute.declares]

end Scope

end XPathQuery.Markup

namespace XPathQuery.Namespaces

open Markup

theorem lookup_singleton (p q u : String) :
    List.lookup p [(q, u)] = if q = p then some u else none := by
  by_cases h : q = p
  · simp [h]
  · simp [List.lookup_cons, h, beq_eq_false_iff_ne.mpr (Ne.symm h)]

/-- A bound prefix keeps its namespace. -/
theorem lookup_declare_of_some (bindings : List (String × String)) (d : Declaration)
    (p u : String) (h : bindings.lookup p = some u) : (declare bindings d).lookup p = some u := by
  unfold declare
  cases d.nsPrefix with
  | none => exact h
  | some q =>
    dsimp only
    split
    · exact h
    · rw [List.lookup_append, h, Option.some_or]

theorem lookup_foldl_declare_of_some (bindings : List (String × String)) (ds : List Declaration)
    (p u : String) (h : bindings.lookup p = some u) :
    (ds.foldl declare bindings).lookup p = some u := by
  induction ds generalizing bindings with
  | nil => exact h
  | cons d ds ih => exact ih _ (lookup_declare_of_some bindings d p u h)

theorem lookup_declare (bindings : List (String × String)) (d : Declaration) (p : String)
    (hp : isFixed p = false) :
    (declare bindings d).lookup p = (bindings.lookup p).or (Scope.uri? [d] (some p)) := by
  obtain ⟨q, u⟩ := d
  unfold declare
  cases q with
  | none => simp [Scope.uri?]
  | some q =>
    dsimp only
    split
    case isFalse =>
      rw [List.lookup_append, lookup_singleton]
      by_cases hq : q = p <;> simp [Scope.uri?, hq]
    case isTrue h =>
      by_cases hq : q = p
      · subst hq
        have hbound : ∃ entry ∈ bindings, (q == entry.1) = true := by
          simpa only [hp, Bool.false_or, List.any_eq_true, BEq.comm] using h
        rw [Option.or_of_isSome (List.lookup_isSome_iff.mpr hbound)]
      · simp [Scope.uri?, hq]

theorem lookup_foldl_declare (bindings : List (String × String)) (ds : List Declaration)
    (p : String) (hp : isFixed p = false) :
    (ds.foldl declare bindings).lookup p = (bindings.lookup p).or (Scope.uri? ds (some p)) := by
  induction ds generalizing bindings with
  | nil => simp [Scope.uri?_nil]
  | cons d ds ih =>
    rw [List.foldl_cons, ih, lookup_declare bindings d p hp, Option.or_assoc, ← Scope.uri?_append,
      List.singleton_append]

end XPathQuery.Namespaces
