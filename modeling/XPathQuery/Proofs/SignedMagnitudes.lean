import XPathQuery.Number.Arithmetic
import XPathQuery.Proofs.NearestRanks

/-!
Signed magnitudes. A finite number is a signed number of units, and the sum with one half and
the floor are computed on it: the sum is the representable number closest to the exact one, an
even one where two are equally close, and the floor is exact.
-/
namespace XPathQuery.Double

def units? : Double → Option Int
  | finite negative rank => some (units negative rank)
  | _ => none

theorem exists_of_units?_eq_some {x : Double} {value : Int} (h : x.units? = some value) :
    ∃ negative, ∃ rank : Fin rankCount, x = finite negative rank ∧ units negative rank = value := by
  cases x with
  | finite negative rank => exact ⟨negative, rank, rfl, Option.some_inj.mp h⟩
  | nan => nomatch h
  | infinite => nomatch h

def signed (negative : Bool) (magnitude : Nat) : Int :=
  if negative then -(magnitude : Int) else magnitude

def Representable (value : Int) : Prop := ∃ negative rank, units negative rank = value

def nearestUnits (value : Int) : Int := units (value < 0) (nearestRank value.natAbs 1)

theorem units_eq_signed (negative : Bool) (rank : Nat) :
    units negative rank = signed negative (unitsOf rank) := rfl

@[simp] theorem natAbs_signed (negative : Bool) (magnitude : Nat) :
    (signed negative magnitude).natAbs = magnitude := by
  cases negative <;> simp [signed]

theorem units_true (rank : Nat) : units true rank = -(unitsOf rank : Int) := rfl

theorem units_false (rank : Nat) : units false rank = unitsOf rank := rfl

theorem units_not (negative : Bool) (rank : Nat) :
    units (!negative) rank = -units negative rank := by
  cases negative with
  | true => exact (neg_neg _).symm
  | false => rfl

theorem natAbs_units (negative : Bool) (rank : Nat) :
    (units negative rank).natAbs = unitsOf rank := natAbs_signed negative _

theorem signed_natAbs (value : Int) : signed (value < 0) value.natAbs = value := by
  by_cases h : value < 0
  · rw [decide_eq_true h, signed, if_pos rfl]
    omega
  · rw [decide_eq_false h, signed, if_neg Bool.false_ne_true]
    omega

theorem natAbs_signed_sub (negative : Bool) (m n : Nat) :
    (signed negative m - signed negative n).natAbs = ((m : Int) - n).natAbs := by
  cases negative
  · rfl
  · simp only [signed, if_true]
    omega

theorem nearestUnits_signed (negative : Bool) (magnitude : Nat) :
    nearestUnits (signed negative magnitude) = units negative (nearestRank magnitude 1) := by
  rw [nearestUnits, natAbs_signed]
  rcases Nat.eq_zero_or_pos magnitude with rfl | hpos
  · rw [nearestRank_zero Nat.one_pos]
    cases negative <;> rfl
  · congr 1
    cases negative
    · simp [signed]
    · simpa [signed] using hpos

theorem nearestUnits_units (negative : Bool) (rank : Nat) :
    nearestUnits (units negative rank) = units negative rank := by
  have h := nearestRank_unitsOf rank Nat.one_pos
  rw [Nat.mul_one] at h
  rw [units_eq_signed, nearestUnits_signed, h, units_eq_signed]

theorem representable_units (negative : Bool) (rank : Nat) :
    Representable (units negative rank) := ⟨negative, rank, rfl⟩

theorem nearestUnits_eq_self {value : Int} (h : Representable value) :
    nearestUnits value = value := by
  obtain ⟨negative, rank, rfl⟩ := h
  exact nearestUnits_units negative rank

/-- Signed digits that fit into a binade are representable wherever they are moved. -/
theorem representable_mul (shift : Nat) {digits : Int} (h : digits.natAbs ≤ 2 * binadeSize) :
    Representable (digits * twoTo shift) := by
  obtain ⟨rank, hrank⟩ := exists_unitsOf_eq shift h
  refine ⟨digits < 0, rank, ?_⟩
  rw [units_eq_signed, hrank]
  conv_rhs => rw [← signed_natAbs digits]
  cases decide (digits < 0) <;> simp [signed]

theorem representable_nearestUnits (value : Int) : Representable (nearestUnits value) :=
  representable_units _ _

/-! ### The closest representable number -/

section

variable {numerator rank other : Nat}

/-- No magnitude is closer than the one rounded to. -/
theorem RoundsTo.closest (h : RoundsTo numerator 1 rank) (other : Nat) :
    ((unitsOf rank : Int) - numerator).natAbs ≤ ((unitsOf other : Int) - numerator).natAbs := by
  have hlow := h.low
  have hhigh := h.high
  rw [Nat.mul_one] at hlow hhigh
  rcases Nat.lt_trichotomy other rank with hlt | rfl | hgt
  · have hother := unitsOf_strictMono.monotone (Nat.le_sub_one_of_lt hlt)
    have hself := unitsOf_strictMono hlt
    omega
  · exact le_rfl
  · have hother : unitsOf (rank + 1) ≤ unitsOf other := unitsOf_strictMono.monotone hgt
    have hself := unitsOf_strictMono hgt
    omega

/-- Where another magnitude is equally close, the rank rounded to is even. -/
theorem RoundsTo.even_of_closest (h : RoundsTo numerator 1 rank) (hne : other ≠ rank)
    (heq : ((unitsOf other : Int) - numerator).natAbs =
      ((unitsOf rank : Int) - numerator).natAbs) : rank % 2 = 0 := by
  apply h.even
  have hlow := h.low
  have hhigh := h.high
  rw [Nat.mul_one] at hlow hhigh ⊢
  rw [Nat.mul_one]
  rcases Nat.lt_or_gt_of_ne hne with hlt | hgt
  · have hother := unitsOf_strictMono.monotone (Nat.le_sub_one_of_lt hlt)
    have hself := unitsOf_strictMono hlt
    omega
  · have hother : unitsOf (rank + 1) ≤ unitsOf other := unitsOf_strictMono.monotone hgt
    have hself := unitsOf_strictMono hgt
    omega

end

/-- The rounding keeps the sign, so it is off by as much as that of the magnitude. -/
theorem natAbs_nearestUnits_sub (value : Int) :
    (nearestUnits value - value).natAbs =
      ((unitsOf (nearestRank value.natAbs 1) : Int) - value.natAbs).natAbs := by
  conv_lhs => rw [← signed_natAbs value, nearestUnits_signed, units_eq_signed, natAbs_signed_sub]

theorem nearestUnits_closest (value : Int) {other : Int} (h : Representable other) :
    (nearestUnits value - value).natAbs ≤ (other - value).natAbs := by
  obtain ⟨negative, rank, rfl⟩ := h
  have hclosest := (roundsTo_nearestRank value.natAbs Nat.one_pos).closest rank
  have hself := natAbs_units negative rank
  rw [natAbs_nearestUnits_sub]
  omega

/-- Where two representable numbers are equally close, the one rounded to has an even rank. -/
theorem even_of_closest {value other : Int} (h : Representable other)
    (hne : other ≠ nearestUnits value)
    (heq : (other - value).natAbs = (nearestUnits value - value).natAbs) :
    nearestRank value.natAbs 1 % 2 = 0 := by
  obtain ⟨negative, rank, rfl⟩ := h
  have hrounds := roundsTo_nearestRank value.natAbs Nat.one_pos
  have hself := natAbs_units negative rank
  by_cases hrank : rank = nearestRank value.natAbs 1
  · have hnearest : (nearestUnits value).natAbs = unitsOf rank := by
      rw [nearestUnits, natAbs_units, hrank]
    obtain rfl : value = 0 := by omega
    rw [Int.natAbs_zero, nearestRank_zero Nat.one_pos]
  · apply hrounds.even_of_closest hrank
    have hclosest := hrounds.closest rank
    rw [natAbs_nearestUnits_sub] at heq
    omega

/-! ### Sums with one half and floors -/

theorem twoTo_lt {m n : Nat} (h : m < n) : twoTo m < twoTo n :=
  Nat.pow_lt_pow_right (by decide) h

def halfUnits : Nat := twoTo 1073

theorem one_eq_halfUnits : one = 2 * halfUnits := by
  rw [one, halfUnits, ← twoTo_succ]

theorem one_pos : 0 < one := twoTo_pos 1074

theorem representable_mul_halfUnits {n : Int} (h : n.natAbs ≤ 2 * binadeSize) :
    Representable (n * halfUnits) := representable_mul 1073 h

theorem unitsOf_half : unitsOf (1022 * binadeSize) = halfUnits := by
  have hshifted : Shifted (1022 * binadeSize) 1021 binadeSize :=
    ⟨Nat.succ_mul 1021 binadeSize, Or.inr le_rfl, Nat.le_mul_of_pos_left _ (by decide)⟩
  rw [hshifted.unitsOf_eq, binadeSize_eq_twoTo, ← twoTo_add, halfUnits]

theorem half_eq : half = finite false ⟨1022 * binadeSize, by decide⟩ := by
  have hrank : nearestRank one 2 = 1022 * binadeSize := by
    rw [one_eq_halfUnits, Nat.mul_comm, ← unitsOf_half]
    exact nearestRank_unitsOf _ Nat.two_pos
  rw [half, nearest, hrank, ofRank, dif_pos]

/-- Only half a unit of the last binade leads beyond the finite numbers. -/
theorem nearestRank_lt_rankCount {n : Nat} (h : n < unitsOf (rankCount - 1) + twoTo 2044) :
    nearestRank n 1 < rankCount := by
  have hlast : Shifted (rankCount - 1) (2044 + 1) (2 * binadeSize - 1) :=
    ⟨by decide, Or.inr (by decide), by decide⟩
  have hmiddle := hlast.middle_eq (by decide)
  rw [← hlast.unitsOf_eq, twoTo_succ] at hmiddle
  by_contra hge
  have hrank : rankCount - 1 ≤ nearestRank n 1 - 1 :=
    Nat.sub_le_sub_right (Nat.not_lt.mp hge) 1
  have hself : rankCount - 1 + 1 ≤ nearestRank n 1 := Nat.not_lt.mp hge
  have hlow := (roundsTo_nearestRank n Nat.one_pos).low
  have hbelow := unitsOf_strictMono.monotone hrank
  have hunits := unitsOf_strictMono.monotone hself
  omega

theorem units?_nearest (negative : Bool) {n : Nat}
    (h : n < unitsOf (rankCount - 1) + twoTo 2044) :
    units? (nearest negative n 1) = some (nearestUnits (signed negative n)) := by
  rw [nearest, ofRank, dif_pos (nearestRank_lt_rankCount h), nearestUnits_signed, units?]

theorem unitsOf_le_last (rank : Fin rankCount) : unitsOf rank ≤ unitsOf (rankCount - 1) :=
  unitsOf_strictMono.monotone (Nat.le_sub_one_of_lt rank.isLt)

/-- One is lost in the gap behind the last finite number. -/
theorem one_lt_gap : one < twoTo 2044 := twoTo_lt (by decide)

theorem units?_add_half (negative : Bool) (rank : Fin rankCount) :
    units? (add (finite negative rank) half) =
      some (nearestUnits (units negative rank + halfUnits)) := by
  have hhalf : units false (1022 * binadeSize) = halfUnits := congrArg Int.ofNat unitsOf_half
  rw [half_eq, add]
  simp only [hhalf]
  generalize hsum : units negative rank + halfUnits = sum
  split
  · next hzero =>
    subst hzero
    rw [Bool.and_false, ofRank, dif_pos (by decide), units?]
    rfl
  · have hself := natAbs_units negative rank
    have hlast := unitsOf_le_last rank
    have hgap := one_lt_gap
    rw [one_eq_halfUnits] at hgap
    rw [units?_nearest, signed_natAbs]
    omega

/-- The integer below a signed magnitude, upwards from zero if it is negative. -/
theorem signed_wholeUnits (negative : Bool) (magnitude : Nat) :
    signed negative (wholeUnits negative magnitude) = signed negative magnitude / one * one := by
  have hpos : (0 : Int) < one := Int.natCast_pos.mpr one_pos
  cases negative
  · simp only [signed, wholeUnits, Bool.false_eq_true, if_false, Nat.cast_mul, Int.natCast_ediv]
  · have hparts := Nat.div_add_mod' (magnitude + (one - 1)) one
    have hmod := Nat.mod_lt (magnitude + (one - 1)) one_pos
    have hquotient : -(magnitude : Int) / one = -(((magnitude + (one - 1)) / one : Nat) : Int) := by
      rw [Int.ediv_eq_iff_of_pos hpos, neg_mul, ← Nat.cast_mul]
      constructor <;> omega
    simp only [signed, wholeUnits, if_true, hquotient]
    push_cast
    ring

/-- From 2^52 on every magnitude is a whole number. -/
theorem one_dvd_unitsOf {rank : Nat} (h : binadeSize * one ≤ unitsOf rank) :
    one ∣ unitsOf rank := by
  rw [one] at h ⊢
  exact twoTo_dvd_unitsOf h

theorem ediv_one_mul_le (value : Int) : value / one * one ≤ value :=
  Int.ediv_mul_le value (Int.natCast_ne_zero.mpr one_pos.ne')

theorem lt_ediv_one_mul_add (value : Int) : value < value / one * one + one := by
  have h := Int.lt_ediv_add_one_mul_self value (Int.natCast_pos.mpr one_pos)
  rwa [add_mul, one_mul] at h

theorem representable_mul_one {n : Int} (h : n.natAbs ≤ 2 * binadeSize) :
    Representable (n * one) := representable_mul 1074 h

theorem natAbs_ediv_one_le {value : Int} {limit : Nat} (h : value.natAbs ≤ limit * one) :
    (value / one).natAbs ≤ limit := by
  have hpos : (0 : Int) < one := Int.natCast_pos.mpr one_pos
  have hlow : -(limit : Int) ≤ value / one := by
    rw [Int.le_ediv_iff_mul_le hpos, neg_mul, ← Nat.cast_mul]
    omega
  have hhigh : value / one ≤ limit := by
    rw [← Int.lt_add_one_iff, Int.ediv_lt_iff_lt_mul hpos, add_mul, ← Nat.cast_mul]
    omega
  omega

/-- From 2^52 on every representable number is whole. -/
theorem Representable.exists_eq_mul_one {value : Int} (h : Representable value)
    (hlarge : binadeSize * one ≤ value.natAbs) :
    ∃ n : Int, value = n * one ∧ binadeSize ≤ n.natAbs := by
  obtain ⟨negative, rank, rfl⟩ := h
  obtain ⟨n, hn⟩ : (one : Int) ∣ units negative rank := by
    rw [natAbs_units] at hlarge
    rw [Int.natCast_dvd, natAbs_units]
    exact one_dvd_unitsOf hlarge
  refine ⟨n, by rw [hn, Int.mul_comm], ?_⟩
  rw [hn, Int.natAbs_mul, Int.natAbs_natCast, Nat.mul_comm] at hlarge
  exact Nat.le_of_mul_le_mul_left hlarge one_pos

/-- The whole number below a number is representable, being the number itself from 2^52 on. -/
theorem Representable.whole {value : Int} (h : Representable value) :
    Representable (value / one * one) := by
  by_cases hlarge : binadeSize * one ≤ value.natAbs
  · obtain ⟨n, rfl, -⟩ := h.exists_eq_mul_one hlarge
    rwa [Int.mul_ediv_cancel _ (Int.natCast_ne_zero.mpr one_pos.ne')]
  · apply representable_mul_one
    have hquotient := natAbs_ediv_one_le (Nat.le_of_not_le hlarge)
    omega

theorem units?_floor (negative : Bool) (rank : Fin rankCount) :
    units? (floor (finite negative rank)) = some (units negative rank / one * one) := by
  have hwhole := signed_wholeUnits negative (unitsOf rank)
  rw [← units_eq_signed] at hwhole
  rw [floor, units?_nearest, hwhole, nearestUnits_eq_self (representable_units negative rank).whole]
  have hself := natAbs_units negative rank
  have hlast := unitsOf_le_last rank
  have hgap := one_lt_gap
  have hlow := ediv_one_mul_le (units negative rank)
  have hhigh := lt_ediv_one_mul_add (units negative rank)
  rw [← natAbs_signed negative (wholeUnits negative _), hwhole]
  omega

/-- A number is rounded by the floor of the representable number closest to its sum with one
half. -/
theorem units?_round (negative : Bool) (rank : Fin rankCount) :
    units? (round (finite negative rank)) =
      some (nearestUnits (units negative rank + halfUnits) / one * one) := by
  rw [round]
  split
  · next hzero =>
    have hunits : units negative rank = 0 := by
      rw [units_eq_signed, hzero, unitsOf_zero]
      cases negative <;> rfl
    have hhalf : Representable halfUnits := ⟨false, _, congrArg Int.ofNat unitsOf_half⟩
    have hpos := one_pos
    rw [units?, hunits, zero_add, nearestUnits_eq_self hhalf, Int.ediv_eq_zero_of_lt, zero_mul]
    · omega
    · rw [one_eq_halfUnits] at hpos ⊢
      omega
  · have hsum := units?_add_half negative rank
    obtain ⟨sign, place, hfinite, hunits⟩ := exists_of_units?_eq_some hsum
    rw [hfinite, units?_floor, hunits]

end XPathQuery.Double
