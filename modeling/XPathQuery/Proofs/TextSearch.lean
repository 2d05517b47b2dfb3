import XPathQuery.Text.Search
import Mathlib.Data.List.Infix

/-!
What a search finds. A needle splits a text at its leftmost occurrence: the one before which
no other begins, even where occurrences overlap. There is no split exactly when the needle
does not occur at all.
-/
namespace XPathQuery.Text

def NoneBefore (needle cs : List Char) (place : Nat) : Prop :=
  ∀ earlier < place, ¬ needle <+: cs.drop earlier

theorem noneBefore_zero (needle cs : List Char) : NoneBefore needle cs 0 := by
  intro earlier h
  exact absurd h (Nat.not_lt_zero earlier)

theorem noneBefore_cons (needle cs : List Char) (c : Char) (place : Nat) :
    NoneBefore needle (c :: cs) (place + 1) ↔
      ¬ needle <+: c :: cs ∧ NoneBefore needle cs place := by
  constructor
  · intro h
    exact ⟨h 0 place.succ_pos, fun earlier hlt => h (earlier + 1) (Nat.succ_lt_succ hlt)⟩
  · intro h earlier hlt
    obtain ⟨hhere, hlater⟩ := h
    cases earlier with
    | zero => exact hhere
    | succ earlier => exact hlater earlier (Nat.lt_of_succ_lt_succ hlt)

theorem splitAt?_nil (needle : List Char) :
    splitAt? needle [] = if needle = [] then some ([], []) else none := by
  simp only [splitAt?, List.isEmpty_iff]

theorem splitAt?_here (needle cs : List Char) (h : needle <+: cs) :
    splitAt? needle cs = some ([], cs.drop needle.length) := by
  cases cs with
  | nil =>
    obtain rfl := List.prefix_nil.mp h
    rfl
  | cons c cs => rw [splitAt?, if_pos (List.isPrefixOf_iff_prefix.mpr h)]

theorem splitAt?_later (needle cs : List Char) (c : Char) (h : ¬ needle <+: c :: cs) :
    splitAt? needle (c :: cs) = (splitAt? needle cs).map (Prod.map (List.cons c) id) := by
  rw [splitAt?, if_neg (mt List.isPrefixOf_iff_prefix.mp h)]
  rfl

/-- A text is split at the leftmost occurrence of a needle. -/
theorem splitAt?_eq_some_iff (needle cs before after : List Char) :
    splitAt? needle cs = some (before, after) ↔
      cs = before ++ needle ++ after ∧ NoneBefore needle cs before.length := by
  induction cs generalizing before with
  | nil =>
    rw [splitAt?_nil]
    constructor
    · intro h
      split at h
      · rename_i hneedle
        obtain ⟨rfl, rfl⟩ := Prod.mk.inj (Option.some.inj h)
        exact ⟨by simp [hneedle], noneBefore_zero needle []⟩
      · cases h
    · intro h
      obtain ⟨hnil, _⟩ := h
      obtain ⟨hbefore, rfl⟩ := List.append_eq_nil_iff.mp hnil.symm
      obtain ⟨rfl, rfl⟩ := List.append_eq_nil_iff.mp hbefore
      rfl
  | cons c cs ih =>
    by_cases hfound : needle <+: c :: cs
    · rw [splitAt?_here needle (c :: cs) hfound]
      constructor
      · intro h
        obtain ⟨rfl, rfl⟩ := Prod.mk.inj (Option.some.inj h)
        exact ⟨(List.prefix_iff_eq_append.mp hfound).symm, noneBefore_zero needle _⟩
      · intro h
        obtain ⟨hsplit, hnone⟩ := h
        cases before with
        | nil => rw [hsplit, List.nil_append, List.drop_left]
        | cons d before => exact absurd hfound (hnone 0 before.length.succ_pos)
    · rw [splitAt?_later needle cs c hfound]
      constructor
      · intro h
        obtain ⟨⟨start, rest⟩, hrest, hpair⟩ := Option.map_eq_some_iff.mp h
        obtain ⟨rfl, rfl⟩ := Prod.mk.inj hpair
        obtain ⟨hsplit, hnone⟩ := (ih start).mp hrest
        exact ⟨congrArg (List.cons c) hsplit,
          (noneBefore_cons needle cs c start.length).mpr ⟨hfound, hnone⟩⟩
      · intro h
        obtain ⟨hsplit, hnone⟩ := h
        cases before with
        | nil => exact absurd ⟨after, hsplit.symm⟩ hfound
        | cons d before =>
          obtain ⟨rfl, htail⟩ := List.cons.inj hsplit
          have hlater := ((noneBefore_cons needle cs c before.length).mp hnone).2
          exact Option.map_eq_some_iff.mpr ⟨(before, after), (ih before).mpr ⟨htail, hlater⟩, rfl⟩

theorem splitAt?_eq_none_iff (needle cs : List Char) :
    splitAt? needle cs = none ↔ ¬ needle <:+: cs := by
  induction cs with
  | nil =>
    rw [splitAt?_nil, List.infix_nil]
    split <;> simp_all
  | cons c cs ih =>
    rw [List.infix_cons_iff, not_or, ← ih]
    by_cases hfound : needle <+: c :: cs
    · simp [splitAt?_here needle (c :: cs) hfound, hfound]
    · simp [splitAt?_later needle cs c hfound, hfound]

/-- Splitting at an occurrence loses nothing. -/
theorem eq_append_of_splitAt? (needle cs before after : List Char)
    (h : splitAt? needle cs = some (before, after)) : cs = before ++ needle ++ after :=
  ((splitAt?_eq_some_iff needle cs before after).mp h).1

end XPathQuery.Text
