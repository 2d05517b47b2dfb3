import XPathQuery.Proofs.NearestRanks

/-!
Counts as doubles. A count below 2^53 has no more binary digits than a double keeps, so
nothing of it is rounded away. Hence a count below that bound becomes a double equal to
that of no other count.
-/
namespace XPathQuery.Double

/-- The bound below which every count is a double. -/
def countLimit : Nat := twoTo 53

theorem countLimit_eq : countLimit = 2 * binadeSize := rfl

/-- A count up to the limit is converted exactly. -/
theorem unitsOf_nearestRank {n : Nat} (h : n ≤ countLimit) :
    unitsOf (nearestRank (n * one) 1) = n * one := by
  obtain ⟨rank, hrank⟩ := exists_unitsOf_eq 1074 (countLimit_eq ▸ h)
  have hunits : unitsOf rank = n * one := hrank
  have hnearest := nearestRank_unitsOf rank Nat.one_pos
  rw [Nat.mul_one, hunits] at hnearest
  rw [hnearest, hunits]

theorem nearestRank_countLimit : nearestRank (countLimit * one) 1 = 1076 * binadeSize := by
  have hshifted : Shifted (1076 * binadeSize) 1075 binadeSize :=
    ⟨Nat.succ_mul 1075 binadeSize, Or.inr le_rfl, Nat.le_mul_of_pos_left _ (by decide)⟩
  have hunits : unitsOf (1076 * binadeSize) = countLimit * one := by
    rw [hshifted.unitsOf_eq, countLimit_eq, twoTo_succ 1074, one]
    ring
  rw [← hunits, ← Nat.mul_one (unitsOf _)]
  exact nearestRank_unitsOf _ Nat.one_pos

/-- Counts below the limit have lesser ranks than all others. -/
theorem nearestRank_lt {n : Nat} (h : n < countLimit) :
    nearestRank (n * one) 1 < 1076 * binadeSize := by
  rw [← nearestRank_countLimit, ← unitsOf_strictMono.lt_iff_lt, unitsOf_nearestRank h.le,
    unitsOf_nearestRank le_rfl]
  exact Nat.mul_lt_mul_of_pos_right h (twoTo_pos 1074)

theorem le_nearestRank_of_le {n : Nat} (h : countLimit ≤ n) :
    1076 * binadeSize ≤ nearestRank (n * one) 1 := by
  rw [← nearestRank_countLimit]
  apply nearestRank_le_of_le Nat.one_pos Nat.one_pos
  exact Nat.mul_le_mul_right 1 (Nat.mul_le_mul_right one h)

theorem place?_ofRank (rank : Nat) :
    (ofRank false rank).place? = some ((min rank rankCount : Nat) : Int) := by
  unfold ofRank
  split
  · rename_i h
    simp [place?, Nat.min_eq_left h.le]
  · rename_i h
    simp [place?, Nat.min_eq_right (Nat.not_lt.mp h)]

theorem equal_ofRank_iff (rank other : Nat) :
    (ofRank false rank).equal (ofRank false other) = true ↔
      min rank rankCount = min other rankCount := by
  rw [equal, related, place?_ofRank, place?_ofRank]
  exact beq_iff_eq.trans Int.natCast_inj

/-- A count below the limit becomes a double that is equal to no other count. -/
theorem equal_ofNat_iff_of_lt (k : Nat) {n : Nat} (h : n < countLimit) :
    (ofNat k).equal (ofNat n) = true ↔ k = n := by
  have hsmall := nearestRank_lt h
  have hlimit : 1076 * binadeSize < rankCount := by decide
  rw [ofNat, ofNat, nearest, nearest, equal_ofRank_iff]
  constructor
  · intro hk
    have hlt : k < countLimit := by
      by_contra hge
      have hlarge := le_nearestRank_of_le (Nat.not_lt.mp hge)
      omega
    have hsame : nearestRank (k * one) 1 = nearestRank (n * one) 1 := by
      have hsmall' := nearestRank_lt hlt
      omega
    have hunits : k * one = n * one := by
      rw [← unitsOf_nearestRank hlt.le, ← unitsOf_nearestRank h.le, hsame]
    exact Nat.mul_right_cancel (twoTo_pos 1074) hunits
  · intro hk
    rw [hk]

theorem equal_ofNat_iff {k n : Nat} (h : k < countLimit ∨ n < countLimit) :
    (ofNat k).equal (ofNat n) = true ↔ k = n := by
  rcases h with hk | hn
  · rw [equal_comm, equal_ofNat_iff_of_lt n hk]
    exact eq_comm
  · exact equal_ofNat_iff_of_lt k hn

end XPathQuery.Double
