import XPathQuery.Function.Apply
import XPathQuery.Proofs.TextSearch

/-!
The functions that look for a text in another. They agree on one place: the leftmost
occurrence, where a text splits into what stands before it and what comes after it. A text
starts with another when nothing stands before that place.
-/
namespace XPathQuery

namespace Text

theorem contains_iff_infix (needle cs : List Char) :
    contains needle cs = true ↔ needle <:+: cs := by
  rw [contains, Option.isSome_iff_ne_none, Ne, splitAt?_eq_none_iff, not_not]

/-- No occurrence of a needle has less before it than the one that is found. -/
theorem length_le_of_splitAt? (needle cs before after : List Char)
    (h : splitAt? needle cs = some (before, after)) (u v : List Char)
    (hcs : cs = u ++ needle ++ v) : before.length ≤ u.length := by
  obtain ⟨-, hnone⟩ := (splitAt?_eq_some_iff needle cs before after).mp h
  by_contra hlt
  apply hnone u.length (Nat.not_le.mp hlt)
  rw [hcs, List.append_assoc, List.drop_left]
  exact List.prefix_append needle v

/-- A needle that overlaps itself is found where it first begins. -/
example : splitAt? "aba".toList "xababa".toList = some (['x'], ['b', 'a']) := rfl

/-- A needle is a prefix where it is found at once. -/
theorem isPrefixOf_iff_splitAt? (needle cs : List Char) :
    needle.isPrefixOf cs = true ↔ ∃ after, splitAt? needle cs = some ([], after) := by
  rw [List.isPrefixOf_iff_prefix]
  constructor
  · intro h
    exact ⟨_, splitAt?_here needle cs h⟩
  · intro h
    obtain ⟨after, hsplit⟩ := h
    obtain ⟨rfl, -⟩ := (splitAt?_eq_some_iff needle cs [] after).mp hsplit
    exact List.prefix_append needle after

end Text

/-- Texts with a part in the middle, as strings and as characters. -/
theorem exists_append_iff_infix (whole part : String) :
    (∃ u v, whole = u ++ part ++ v) ↔ part.toList <:+: whole.toList := by
  constructor
  · intro h
    obtain ⟨u, v, rfl⟩ := h
    exact ⟨u.toList, v.toList, by simp⟩
  · intro h
    obtain ⟨u, v, hsplit⟩ := h
    exact ⟨String.ofList u, String.ofList v, String.toList_inj.mp (by simpa using hsplit.symm)⟩

/-- What the functions give that look for a part in a whole text: whether it occurs, whether
the whole text starts with it, what stands before its first occurrence, what comes after, and
the three joined again. -/
structure SearchLaws (whole part : String) (contains startsWith : Bool)
    (before after joined : String) : Prop where
  contains_iff : contains = true ↔ ∃ u v, whole = u ++ part ++ v
  joined_eq : contains = true → joined = whole ∧ whole = before ++ part ++ after
  shortest : contains = true → ∀ u v, whole = u ++ part ++ v → before.length ≤ u.length
  empty : contains = false → before = "" ∧ after = ""
  startsWith_iff : startsWith = true ↔ contains = true ∧ before = ""

/-- The search laws hold of the leftmost split. -/
theorem searchLaws_splitAt? (whole part : String) :
    let split := Text.splitAt? part.toList whole.toList
    let before := String.ofList ((split.map Prod.fst).getD [])
    let after := String.ofList ((split.map Prod.snd).getD [])
    SearchLaws whole part (Text.contains part.toList whole.toList)
      (part.toList.isPrefixOf whole.toList) before after (before ++ part ++ after) := by
  intro split before after
  have hcontains : Text.contains part.toList whole.toList = true ↔ split.isSome = true := Iff.rfl
  have hsome : split.isSome = true → ∃ u v, split = some (u, v) ∧ before = String.ofList u ∧
      after = String.ofList v := by
    intro h
    obtain ⟨⟨u, v⟩, hsplit⟩ := Option.isSome_iff_exists.mp h
    exact ⟨u, v, hsplit, by simp [before, hsplit], by simp [after, hsplit]⟩
  refine ⟨?_, ?_, ?_, ?_, ?_⟩
  · rw [Text.contains_iff_infix, exists_append_iff_infix]
  · intro h
    obtain ⟨u, v, hsplit, hbefore, hafter⟩ := hsome (hcontains.mp h)
    have hwhole : whole = before ++ part ++ after := by
      rw [hbefore, hafter]
      apply String.toList_inj.mp
      simpa using Text.eq_append_of_splitAt? part.toList whole.toList u v hsplit
    exact ⟨hwhole.symm, hwhole⟩
  · intro h u v hwhole
    obtain ⟨u', v', hsplit, hbefore, -⟩ := hsome (hcontains.mp h)
    have hlist : whole.toList = u.toList ++ part.toList ++ v.toList := by
      rw [hwhole, String.toList_append, String.toList_append]
    have hle := Text.length_le_of_splitAt? _ _ u' v' hsplit _ _ hlist
    rw [hbefore, String.length_ofList]
    exact hle.trans_eq String.length_toList
  · intro h
    have hnone : split = none := by
      rw [← Option.not_isSome_iff_eq_none, ← hcontains, h]
      exact Bool.false_ne_true
    simp [before, after, hnone]
  · rw [Text.isPrefixOf_iff_splitAt?, hcontains]
    constructor
    · intro h
      obtain ⟨v, hsplit⟩ := h
      simp [before, split, hsplit]
    · intro h
      obtain ⟨hfound, hempty⟩ := h
      obtain ⟨u, v, hsplit, hbefore, -⟩ := hsome hfound
      obtain rfl : u = [] := String.ofList_eq_empty_iff.mp (hbefore.symm.trans hempty)
      exact ⟨v, hsplit⟩

/-- The four functions that search a text agree on the first occurrence, and what they cut
out joins to the text again. Their arguments are any two values, which stand for texts. -/
theorem callFunction_search (tree : Tree) (context : Context) (whole part : Value) :
    ∃ contains startsWith before after joined,
      callFunction tree context "contains" [whole, part] = .ok (.boolean contains) ∧
      callFunction tree context "starts-with" [whole, part] = .ok (.boolean startsWith) ∧
      callFunction tree context "substring-before" [whole, part] = .ok (.string before) ∧
      callFunction tree context "substring-after" [whole, part] = .ok (.string after) ∧
      callFunction tree context "concat" [.string before, part, .string after] =
        .ok (.string joined) ∧
      SearchLaws (whole.toText tree) (part.toText tree) contains startsWith before after
        joined := by
  have hconcat : ∀ before after : String,
      callFunction tree context "concat" [.string before, part, .string after] =
        .ok (.string (before ++ part.toText tree ++ after)) := by
    intro before after
    have hcall : callFunction tree context "concat" [.string before, part, .string after] =
        .ok (.string (String.join [before, part.toText tree, after])) := rfl
    rw [hcall]
    simp only [String.join_cons, String.join_nil, String.append_empty, String.append_assoc]
  exact ⟨_, _, _, _, _, rfl, rfl, rfl, rfl, hconcat _ _, searchLaws_splitAt? _ _⟩

end XPathQuery
