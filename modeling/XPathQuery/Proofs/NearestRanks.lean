import XPathQuery.Number.Double
import Mathlib.Data.Nat.Log
import Mathlib.Order.Monotone.Basic
import Mathlib.Tactic.Linarith
import Mathlib.Tactic.Ring

/-!
Nearest ranks. A rank is a shift and the digits that it moves, so magnitudes ascend with their
ranks. The rank computed for a quotient is the one whose neighbours are further away, the even
one where two are equally near. Hence a magnitude keeps its rank, and lesser quotients have no
greater ranks.
-/
namespace XPathQuery.Double

theorem binadeSize_eq_twoTo : binadeSize = twoTo 52 := rfl

theorem binadeSize_pos : 0 < binadeSize := by decide

theorem binadeSize_even : binadeSize % 2 = 0 := by decide

theorem twoTo_zero : twoTo 0 = 1 := rfl

theorem twoTo_add (m n : Nat) : twoTo (m + n) = twoTo m * twoTo n := Nat.pow_add 2 m n

theorem twoTo_succ (n : Nat) : twoTo (n + 1) = 2 * twoTo n := Nat.pow_succ'

theorem twoTo_le {m n : Nat} (h : m ≤ n) : twoTo m ≤ twoTo n :=
  Nat.pow_le_pow_right (by decide) h

/-! ### Ranks as shifted digits -/

/-- A rank moves its digits by a shift. They fill a binade unless nothing is moved, and the
first rank of a binade is also the last one of the binade before. -/
structure Shifted (rank shift digits : Nat) : Prop where
  eq_add : rank = shift * binadeSize + digits
  full : shift = 0 ∨ binadeSize ≤ digits
  le : digits ≤ 2 * binadeSize

namespace Shifted

variable {rank shift digits : Nat}

theorem unitsOf_eq (h : Shifted rank shift digits) : unitsOf rank = digits * twoTo shift := by
  have hpos := binadeSize_pos
  by_cases hsmall : digits < binadeSize
  · obtain rfl : shift = 0 := h.full.resolve_right (Nat.not_le.mpr hsmall)
    have hrank : rank = digits := by rw [h.eq_add, Nat.zero_mul, Nat.zero_add]
    rw [hrank, unitsOf, if_pos hsmall, twoTo_zero, Nat.mul_one]
  obtain ⟨fraction, rfl⟩ := Nat.exists_eq_add_of_le (Nat.not_lt.mp hsmall)
  have hrank : rank = binadeSize * (shift + 1) + fraction := by
    rw [h.eq_add]
    ring
  have hlarge : ¬ rank < binadeSize := by
    rw [hrank, Nat.mul_succ]
    omega
  have hle : fraction ≤ binadeSize := by
    have := h.le
    omega
  rcases Nat.lt_or_eq_of_le hle with hlt | rfl
  · have hdiv : rank / binadeSize = shift + 1 := by
      rw [hrank, Nat.mul_add_div hpos, Nat.div_eq_of_lt hlt, Nat.add_zero]
    have hmod : rank % binadeSize = fraction := by
      rw [hrank, Nat.mul_add_mod, Nat.mod_eq_of_lt hlt]
    rw [unitsOf, if_neg hlarge, hdiv, hmod, Nat.add_sub_cancel]
  · have hnext : rank = binadeSize * (shift + 2) := by
      rw [hrank]
      ring
    have hdiv : rank / binadeSize = shift + 2 := by rw [hnext, Nat.mul_div_cancel_left _ hpos]
    have hmod : rank % binadeSize = 0 := by rw [hnext, Nat.mul_mod_right]
    rw [unitsOf, if_neg hlarge, hdiv, hmod, Nat.add_zero, Nat.add_sub_assoc (by decide),
      twoTo_succ]
    ring

/-- The next rank has the next digits, as long as the binade has any. -/
theorem next (h : Shifted rank shift digits) (hlt : digits < 2 * binadeSize) :
    Shifted (rank + 1) shift (digits + 1) := by
  refine ⟨by rw [h.eq_add, Nat.add_assoc], ?_, hlt⟩
  exact h.full.imp_right fun hfull => Nat.le_succ_of_le hfull

theorem previous (h : Shifted (rank + 1) shift (digits + 1))
    (hfull : shift = 0 ∨ binadeSize ≤ digits) : Shifted rank shift digits := by
  refine ⟨?_, hfull, Nat.le_of_succ_le h.le⟩
  have := h.eq_add
  omega

/-- Past the last digits of a binade the next shift begins. -/
theorem carry (h : Shifted rank shift (2 * binadeSize)) :
    Shifted rank (shift + 1) binadeSize := by
  refine ⟨?_, Or.inr (Nat.le_refl _), by omega⟩
  rw [h.eq_add]
  ring

theorem mod_two (h : Shifted rank shift digits) : rank % 2 = digits % 2 := by
  rw [h.eq_add, Nat.add_mod, Nat.mul_mod, binadeSize_even]
  simp

end Shifted

theorem exists_shifted (rank : Nat) :
    ∃ shift digits, Shifted rank shift digits ∧ digits < 2 * binadeSize := by
  have hpos := binadeSize_pos
  by_cases hsmall : rank < binadeSize
  · exact ⟨0, rank, ⟨by simp, Or.inl rfl, by omega⟩, by omega⟩
  · have hmod := Nat.mod_lt rank hpos
    have hdiv : 1 ≤ rank / binadeSize := Nat.div_pos (Nat.not_lt.mp hsmall) hpos
    refine ⟨rank / binadeSize - 1, binadeSize + rank % binadeSize,
      ⟨?_, Or.inr (Nat.le_add_right _ _), by omega⟩, by omega⟩
    have hparts := Nat.div_add_mod' rank binadeSize
    rw [Nat.sub_mul, Nat.one_mul, ← Nat.add_assoc,
      Nat.sub_add_cancel (Nat.le_mul_of_pos_left binadeSize hdiv), hparts]

theorem unitsOf_lt_succ (rank : Nat) : unitsOf rank < unitsOf (rank + 1) := by
  obtain ⟨shift, digits, hrank, hlt⟩ := exists_shifted rank
  rw [hrank.unitsOf_eq, (hrank.next hlt).unitsOf_eq, Nat.succ_mul]
  exact Nat.lt_add_of_pos_right (twoTo_pos shift)

theorem unitsOf_strictMono : StrictMono unitsOf := strictMono_nat_of_lt_succ unitsOf_lt_succ

/-- Digits that fit into a binade are a magnitude wherever they are moved. -/
theorem exists_unitsOf_eq (shift : Nat) {digits : Nat} (h : digits ≤ 2 * binadeSize) :
    ∃ rank, unitsOf rank = digits * twoTo shift := by
  induction shift generalizing digits with
  | zero => exact ⟨_, Shifted.unitsOf_eq ⟨rfl, Or.inl rfl, h⟩⟩
  | succ shift ih =>
    by_cases hfull : binadeSize ≤ digits
    · exact ⟨_, Shifted.unitsOf_eq ⟨rfl, Or.inr hfull, h⟩⟩
    · obtain ⟨rank, hrank⟩ := @ih (2 * digits) (by omega)
      refine ⟨rank, ?_⟩
      rw [hrank, twoTo_succ]
      ring

/-- A magnitude from some binade on is a multiple of the unit of that binade. -/
theorem twoTo_dvd_unitsOf {rank shift : Nat} (h : binadeSize * twoTo shift ≤ unitsOf rank) :
    twoTo shift ∣ unitsOf rank := by
  obtain ⟨own, digits, hrank, hlt⟩ := exists_shifted rank
  rw [hrank.unitsOf_eq] at h ⊢
  by_cases hle : shift ≤ own
  · exact Dvd.dvd.mul_left (Nat.pow_dvd_pow 2 hle) digits
  · have hunit : 2 * twoTo own ≤ twoTo shift := twoTo_succ own ▸ twoTo_le (Nat.not_le.mp hle)
    have hunits := Nat.mul_le_mul_left binadeSize hunit
    have hdigits := Nat.mul_lt_mul_of_pos_right hlt (twoTo_pos own)
    linarith

/-! ### Rounded quotients -/

/-- The rounded quotient is nearest, and even where the next one is equally near. -/
theorem roundDiv_cases (numerator : Nat) {denominator : Nat} (h : 0 < denominator) :
    let digits := roundDiv numerator denominator
    2 * (digits * denominator) ≤ 2 * numerator + denominator ∧
      2 * numerator ≤ 2 * (digits * denominator) + denominator ∧
      (2 * (digits * denominator) = 2 * numerator + denominator ∨
        2 * numerator = 2 * (digits * denominator) + denominator → digits % 2 = 0) := by
  have hparts := Nat.div_add_mod' numerator denominator
  have hmod := Nat.mod_lt numerator h
  simp only [roundDiv]
  generalize numerator / denominator = quotient at hparts ⊢
  generalize numerator % denominator = remainder at hparts hmod ⊢
  have hnext : (quotient + 1) * denominator = quotient * denominator + denominator :=
    Nat.succ_mul _ _
  split
  · omega
  · split
    · omega
    · split <;> omega

theorem le_roundDiv {least numerator denominator : Nat} (h : 0 < denominator)
    (hle : least * denominator ≤ numerator) : least ≤ roundDiv numerator denominator := by
  have hquotient : least ≤ numerator / denominator := (Nat.le_div_iff_mul_le h).mpr hle
  simp only [roundDiv]
  split
  · exact hquotient
  · split
    · omega
    · split <;> omega

theorem roundDiv_le {limit numerator denominator : Nat} (h : 0 < denominator)
    (hlt : numerator < limit * denominator) : roundDiv numerator denominator ≤ limit := by
  have hquotient : numerator / denominator < limit := (Nat.div_lt_iff_lt_mul h).mpr hlt
  simp only [roundDiv]
  split
  · omega
  · split
    · exact hquotient
    · split <;> omega

/-- The nearest rank is made of the digits that are left of the quotient after some shift. -/
theorem exists_shifted_nearestRank (numerator : Nat) {denominator : Nat} (h : 0 < denominator) :
    ∃ shift, Shifted (nearestRank numerator denominator) shift
        (roundDiv numerator (denominator * twoTo shift)) ∧
      (shift = 0 ∨ binadeSize * (denominator * twoTo shift) ≤ numerator) := by
  have hpos : ∀ shift, 0 < denominator * twoTo shift :=
    fun shift => Nat.mul_pos h (twoTo_pos shift)
  by_cases hsmall : numerator / denominator < 2 * binadeSize
  · refine ⟨0, ⟨?_, Or.inl rfl, ?_⟩, Or.inl rfl⟩
    · simp only [nearestRank, if_pos hsmall]
    · apply roundDiv_le (hpos 0)
      rwa [twoTo_zero, Nat.mul_one, ← Nat.div_lt_iff_lt_mul h]
  · have hne : numerator / denominator ≠ 0 := by
      have := binadeSize_pos
      omega
    have hlog : 53 ≤ (numerator / denominator).log2 :=
      (Nat.le_log2 hne).mpr (Nat.not_lt.mp hsmall)
    obtain ⟨shift, hshift⟩ := Nat.exists_eq_add_of_le (Nat.le_of_succ_le hlog)
    have hlow : binadeSize * (denominator * twoTo shift) ≤ numerator := by
      have hself : twoTo (52 + shift) ≤ numerator / denominator :=
        hshift ▸ Nat.log2_self_le hne
      rw [Nat.le_div_iff_mul_le h, twoTo_add, ← binadeSize_eq_twoTo] at hself
      linarith
    have hhigh : numerator < 2 * binadeSize * (denominator * twoTo shift) := by
      have hself : numerator / denominator < twoTo (52 + shift + 1) :=
        hshift ▸ Nat.lt_log2_self
      rw [Nat.div_lt_iff_lt_mul h, twoTo_succ, twoTo_add, ← binadeSize_eq_twoTo] at hself
      linarith
    refine ⟨shift, ⟨?_, Or.inr (le_roundDiv (hpos shift) hlow), roundDiv_le (hpos shift) hhigh⟩,
      Or.inr hlow⟩
    simp only [nearestRank, if_neg hsmall, hshift, Nat.add_sub_cancel_left]

/-! ### Middles between ranks -/

namespace Shifted

variable {rank shift digits : Nat}

/-- Within a binade the middle of two neighbours is half a digit away from both. -/
theorem middle_eq (h : Shifted rank shift digits) (hlt : digits < 2 * binadeSize) :
    unitsOf rank + unitsOf (rank + 1) = 2 * (digits * twoTo shift) + twoTo shift := by
  rw [h.unitsOf_eq, (h.next hlt).unitsOf_eq]
  ring

theorem low_middle (h : Shifted (rank + 1) shift digits) :
    unitsOf rank + unitsOf (rank + 1) + twoTo shift = 2 * (digits * twoTo shift) ∨
      shift ≠ 0 ∧ digits = binadeSize ∧
        unitsOf rank + unitsOf (rank + 1) < 2 * (digits * twoTo shift) := by
  cases digits with
  | zero =>
    have hrank := h.eq_add
    have hshift : shift = 0 := h.full.resolve_right (Nat.not_le.mpr binadeSize_pos)
    rw [hshift] at hrank
    omega
  | succ digits =>
    by_cases hfull : shift = 0 ∨ binadeSize ≤ digits
    · left
      rw [(h.previous hfull).middle_eq h.le]
      ring
    · right
      have hdigits := h.full.resolve_left fun hshift => hfull (Or.inl hshift)
      refine ⟨fun hshift => hfull (Or.inl hshift), by omega, ?_⟩
      have hlt := unitsOf_lt_succ rank
      have hself := h.unitsOf_eq
      omega

theorem high_middle (h : Shifted rank shift digits) :
    unitsOf rank + unitsOf (rank + 1) = 2 * (digits * twoTo shift) + twoTo shift ∨
      2 * (digits * twoTo shift) + twoTo shift < unitsOf rank + unitsOf (rank + 1) := by
  rcases Nat.lt_or_eq_of_le h.le with hlt | rfl
  · exact Or.inl (h.middle_eq hlt)
  · right
    have hpos := twoTo_pos shift
    have hcarry := h.carry.middle_eq (by have := binadeSize_pos; omega)
    rw [hcarry, twoTo_succ]
    linarith

end Shifted

/-- A quotient of units lies between the middles from a rank to its neighbours, and on one of
them only if the rank is even. The middles are doubled, so that they stay whole. -/
structure RoundsTo (numerator denominator rank : Nat) : Prop where
  low : (unitsOf (rank - 1) + unitsOf rank) * denominator ≤ 2 * numerator
  high : 2 * numerator ≤ (unitsOf rank + unitsOf (rank + 1)) * denominator
  even : (unitsOf (rank - 1) + unitsOf rank) * denominator = 2 * numerator ∨
    2 * numerator = (unitsOf rank + unitsOf (rank + 1)) * denominator → rank % 2 = 0

theorem roundsTo_nearestRank (numerator : Nat) {denominator : Nat} (h : 0 < denominator) :
    RoundsTo numerator denominator (nearestRank numerator denominator) := by
  obtain ⟨shift, hrank, hlarge⟩ := exists_shifted_nearestRank numerator h
  have hunit : 0 < denominator * twoTo shift := Nat.mul_pos h (twoTo_pos shift)
  obtain ⟨hlow, hhigh, heven⟩ := roundDiv_cases numerator hunit
  have hmod := hrank.mod_two
  generalize roundDiv numerator (denominator * twoTo shift) = digits at *
  generalize nearestRank numerator denominator = rank at *
  have hscale : 2 * (digits * twoTo shift) * denominator =
      2 * (digits * (denominator * twoTo shift)) := by ring
  have hbelow : (unitsOf (rank - 1) + unitsOf rank) * denominator + denominator * twoTo shift =
        2 * (digits * (denominator * twoTo shift)) ∨
      (unitsOf (rank - 1) + unitsOf rank) * denominator < 2 * numerator ∨ rank = 0 := by
    cases rank with
    | zero => exact Or.inr (Or.inr rfl)
    | succ rank =>
      rw [Nat.add_sub_cancel]
      rcases hrank.low_middle with hmiddle | ⟨hshift, hdigits, hmiddle⟩
      · left
        rw [← hscale, ← hmiddle]
        ring
      · right; left
        have hfilled := hlarge.resolve_left hshift
        have hlt := Nat.mul_lt_mul_of_pos_right hmiddle h
        rw [hscale, hdigits] at hlt
        omega
  have habove : (unitsOf rank + unitsOf (rank + 1)) * denominator =
        2 * (digits * (denominator * twoTo shift)) + denominator * twoTo shift ∨
      2 * numerator < (unitsOf rank + unitsOf (rank + 1)) * denominator := by
    rcases hrank.high_middle with hmiddle | hmiddle
    · left
      rw [hmiddle, Nat.add_mul, hscale, Nat.mul_comm denominator]
    · right
      have hlt := Nat.mul_lt_mul_of_pos_right hmiddle h
      rw [Nat.add_mul, hscale, Nat.mul_comm (twoTo shift)] at hlt
      omega
  have hzero : rank = 0 → (unitsOf (rank - 1) + unitsOf rank) * denominator = 0 := by
    rintro rfl
    simp [unitsOf_zero]
  refine ⟨?_, ?_, ?_⟩ <;> omega

section

variable {numerator denominator rank numerator' denominator' rank' : Nat}

/-- A lesser quotient does not round to a greater rank, since both would have to be the one
middle between the ranks. -/
theorem RoundsTo.le_of_le (h : RoundsTo numerator denominator rank)
    (h' : RoundsTo numerator' denominator' rank') (hpos : 0 < denominator)
    (hpos' : 0 < denominator') (hle : numerator * denominator' ≤ numerator' * denominator) :
    rank ≤ rank' := by
  by_contra hgreater
  have hlt : rank' < rank := Nat.not_le.mp hgreater
  have hlow : unitsOf rank' ≤ unitsOf (rank - 1) :=
    unitsOf_strictMono.monotone (Nat.le_sub_one_of_lt hlt)
  have hhigh : unitsOf (rank' + 1) ≤ unitsOf rank := unitsOf_strictMono.monotone hlt
  have hmiddles : unitsOf rank' + unitsOf (rank' + 1) ≤ unitsOf (rank - 1) + unitsOf rank :=
    Nat.add_le_add hlow hhigh
  have hdown := Nat.mul_le_mul_right denominator' h.low
  have hup := Nat.mul_le_mul_right denominator h'.high
  have hproducts := Nat.mul_le_mul_right (denominator * denominator') hmiddles
  have hself : (unitsOf (rank - 1) + unitsOf rank) * denominator = 2 * numerator := by
    apply Nat.eq_of_mul_eq_mul_right hpos'
    linarith
  have hself' : 2 * numerator' = (unitsOf rank' + unitsOf (rank' + 1)) * denominator' := by
    apply Nat.eq_of_mul_eq_mul_right hpos
    linarith
  have hsame : unitsOf rank' + unitsOf (rank' + 1) = unitsOf (rank - 1) + unitsOf rank := by
    apply Nat.eq_of_mul_eq_mul_right (Nat.mul_pos hpos hpos')
    linarith
  have hneighbour : rank' = rank - 1 :=
    unitsOf_strictMono.injective (by omega)
  have heven := h.even (Or.inl hself)
  have heven' := h'.even (Or.inr hself')
  omega

theorem RoundsTo.nearestRank_eq (h : RoundsTo numerator denominator rank)
    (hpos : 0 < denominator) : nearestRank numerator denominator = rank := by
  have hnearest := roundsTo_nearestRank numerator hpos
  exact Nat.le_antisymm (hnearest.le_of_le h hpos hpos le_rfl) (h.le_of_le hnearest hpos hpos le_rfl)

theorem nearestRank_eq_iff (hpos : 0 < denominator) :
    nearestRank numerator denominator = rank ↔ RoundsTo numerator denominator rank := by
  constructor
  · rintro rfl
    exact roundsTo_nearestRank numerator hpos
  · exact fun h => h.nearestRank_eq hpos

theorem nearestRank_le_of_le (hpos : 0 < denominator) (hpos' : 0 < denominator')
    (hle : numerator * denominator' ≤ numerator' * denominator) :
    nearestRank numerator denominator ≤ nearestRank numerator' denominator' :=
  (roundsTo_nearestRank numerator hpos).le_of_le (roundsTo_nearestRank numerator' hpos') hpos hpos'
    hle

/-- The rank depends on the quotient alone. -/
theorem nearestRank_congr (hpos : 0 < denominator) (hpos' : 0 < denominator')
    (heq : numerator * denominator' = numerator' * denominator) :
    nearestRank numerator denominator = nearestRank numerator' denominator' :=
  Nat.le_antisymm (nearestRank_le_of_le hpos hpos' heq.le)
    (nearestRank_le_of_le hpos' hpos heq.ge)

/-- A magnitude is nearest to itself. -/
theorem roundsTo_unitsOf (rank : Nat) (hpos : 0 < denominator) :
    RoundsTo (unitsOf rank * denominator) denominator rank := by
  have hlow : unitsOf (rank - 1) ≤ unitsOf rank := unitsOf_strictMono.monotone (Nat.sub_le rank 1)
  have hhigh := unitsOf_lt_succ rank
  refine ⟨?_, ?_, ?_⟩
  · rw [← Nat.mul_assoc]
    exact Nat.mul_le_mul_right _ (by omega)
  · rw [← Nat.mul_assoc]
    exact Nat.mul_le_mul_right _ (by omega)
  · rw [← Nat.mul_assoc]
    rintro (hmiddle | hmiddle)
    · have hsame := Nat.eq_of_mul_eq_mul_right hpos hmiddle
      have hrank : rank - 1 = rank := unitsOf_strictMono.injective (by omega)
      omega
    · have hsame := Nat.eq_of_mul_eq_mul_right hpos hmiddle
      omega

theorem nearestRank_unitsOf (rank : Nat) (hpos : 0 < denominator) :
    nearestRank (unitsOf rank * denominator) denominator = rank :=
  (roundsTo_unitsOf rank hpos).nearestRank_eq hpos

theorem nearestRank_zero (hpos : 0 < denominator) : nearestRank 0 denominator = 0 := by
  have h := nearestRank_unitsOf 0 hpos
  rwa [unitsOf_zero, Nat.zero_mul] at h

end

end XPathQuery.Double
