/-!
Character classes are given as ascending lists of closed ranges of code points.
Membership stops at the first range that lies above the character, so a
character of the first block is decided after a few comparisons.
-/
namespace XPathQuery.Character

/-- Whether a code point lies in one of the ranges of an ascending list. -/
def inRanges (point : Nat) : List (Nat × Nat) → Bool
  | [] => false
  | (first, last) :: rest =>
      if point < first then false
      else if point ≤ last then true
      else inRanges point rest

/-- A character of a class lies in one of its ranges. -/
theorem exists_range_of_inRanges {point : Nat} {ranges : List (Nat × Nat)}
    (h : inRanges point ranges = true) :
    ∃ range ∈ ranges, range.1 ≤ point ∧ point ≤ range.2 := by
  induction ranges with
  | nil => simp [inRanges] at h
  | cons range rest ih =>
    obtain ⟨first, last⟩ := range
    by_cases hfirst : point < first
    · simp [inRanges, hfirst] at h
    · by_cases hlast : point ≤ last
      · exact ⟨(first, last), by simp, by simp; omega⟩
      · obtain ⟨range, hmem, hbounds⟩ := ih (by simpa [inRanges, hfirst, hlast] using h)
        exact ⟨range, by simp [hmem], hbounds⟩

end XPathQuery.Character
