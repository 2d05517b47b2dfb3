import XPathQuery.Proofs.SignedMagnitudes

/-!
Floors of sums with one half. The floor of the exact sum is the nearest integer. The sum that is
rounded to the closest number has the same floor, unless it is rounded up to a whole number: below
2^52 that happens to the greatest number below one half, and from there on to the odd numbers,
which all lie below 2^53.
-/
namespace XPathQuery.Double

/-! ### Numbers below 2^52 -/

/-- The rounded sum with one half is at most one half away from the exact sum, since the number
itself is. -/
theorem nearestUnits_add_half_bounds {value : Int} (h : Representable value) :
    value ≤ nearestUnits (value + halfUnits) ∧
      nearestUnits (value + halfUnits) ≤ value + one := by
  have hclosest := nearestUnits_closest (value + halfUnits) h
  rw [one_eq_halfUnits]
  omega

/-- Below 2^53 the rounding does not cross a whole number, but it may reach the next one. -/
theorem nearestUnits_whole_bounds {value : Int} (h : value.natAbs ≤ (2 * binadeSize - 1) * one) :
    value / one * one ≤ nearestUnits value ∧ nearestUnits value ≤ value / one * one + one := by
  have hquotient := natAbs_ediv_one_le h
  have hlow := ediv_one_mul_le value
  have hhigh := lt_ediv_one_mul_add value
  have hbelow := nearestUnits_closest value
    (representable_mul_one (n := value / one) (by omega))
  have habove := nearestUnits_closest value
    (representable_mul_one (n := value / one + 1) (by have := binadeSize_pos; omega))
  rw [add_mul, one_mul] at habove
  omega

variable {negative : Bool} {rank : Nat}

/-- A number below 2^52 has a digit for one half. -/
theorem Shifted.exists_halfUnits_eq {shift digits : Nat} (h : Shifted rank shift digits)
    (hsmall : unitsOf rank < binadeSize * one) : ∃ k, halfUnits = twoTo k * twoTo shift := by
  have hshift : shift ≤ 1073 := by
    by_contra hgreater
    have hdigits := h.full.resolve_left (by omega)
    have hunit : one ≤ twoTo shift := twoTo_le (Nat.not_le.mp hgreater)
    have hmul := Nat.mul_le_mul hdigits hunit
    rw [h.unitsOf_eq] at hsmall
    omega
  refine ⟨1073 - shift, ?_⟩
  rw [← twoTo_add, Nat.sub_add_cancel hshift, halfUnits]

/-- Towards zero the sum with one half is exact. -/
theorem representable_neg_add_half (hsmall : unitsOf rank < binadeSize * one)
    (hfar : halfUnits ≤ unitsOf rank) : Representable (units true rank + halfUnits) := by
  obtain ⟨shift, digits, hrank, hlt⟩ := exists_shifted rank
  obtain ⟨k, hk⟩ := hrank.exists_halfUnits_eq hsmall
  rw [hk, hrank.unitsOf_eq] at hfar
  have hdigits := Nat.le_of_mul_le_mul_right hfar (twoTo_pos shift)
  have hsum : units true rank + halfUnits = ((twoTo k : Int) - digits) * twoTo shift := by
    rw [units_true, hrank.unitsOf_eq, hk]
    push_cast
    ring
  rw [hsum]
  apply representable_mul
  omega

/-- The end of a binade beyond one is a whole number. -/
theorem one_dvd_of_lt {n shift : Nat} (hone : one ≤ n) (h : n < 2 * binadeSize * twoTo shift) :
    one ∣ 2 * binadeSize * twoTo shift := by
  have hpower : 2 * binadeSize * twoTo shift = twoTo (53 + shift) := by
    rw [twoTo_add, twoTo_succ 52, ← binadeSize_eq_twoTo]
  rw [hpower] at h ⊢
  rw [one] at hone ⊢
  apply Nat.pow_dvd_pow
  by_contra hshort
  have hle : twoTo (53 + shift) ≤ twoTo 1074 := twoTo_le (by omega)
  omega

/-- Away from zero the sum with one half is exact unless it reaches a whole number, where a
binade may end. -/
theorem representable_add_half {n : Nat} (hsmall : unitsOf rank < binadeSize * one) (hpos : 0 < n)
    (hlow : n * one ≤ unitsOf rank) (hhigh : unitsOf rank < n * one + halfUnits) :
    Representable (units false rank + halfUnits) := by
  obtain ⟨shift, digits, hrank, hlt⟩ := exists_shifted rank
  obtain ⟨k, hk⟩ := hrank.exists_halfUnits_eq hsmall
  have hunits := hrank.unitsOf_eq
  have htop : unitsOf rank < 2 * binadeSize * twoTo shift := by
    rw [hunits]
    exact Nat.mul_lt_mul_of_pos_right hlt (twoTo_pos shift)
  have hone : one ≤ unitsOf rank := le_trans (Nat.le_mul_of_pos_left one hpos) hlow
  obtain ⟨count, hcount⟩ := one_dvd_of_lt hone htop
  have hless : n < count := by
    apply Nat.lt_of_mul_lt_mul_right (a := one)
    rw [Nat.mul_comm count, ← hcount]
    exact lt_of_le_of_lt hlow htop
  have hnext : n * one + one ≤ 2 * binadeSize * twoTo shift := by
    rw [← Nat.succ_mul, hcount, Nat.mul_comm one]
    exact Nat.mul_le_mul_right one hless
  have hsum : units false rank + halfUnits = ((digits + twoTo k : Nat) : Int) * twoTo shift := by
    rw [units_false, hunits, hk]
    push_cast
    ring
  have hfits : (digits + twoTo k) * twoTo shift ≤ 2 * binadeSize * twoTo shift := by
    rw [Nat.add_mul, ← hunits, ← hk]
    rw [one_eq_halfUnits] at hlow hhigh hnext
    omega
  rw [hsum]
  exact representable_mul shift (Nat.le_of_mul_le_mul_right hfits (twoTo_pos shift))

/-- The sum with one half is exact for a number that is nearest to a whole number below it,
unless that is zero. -/
theorem representable_add_half_of_above {n : Int} (hsmall : unitsOf rank < binadeSize * one)
    (hne : n ≠ 0) (hlow : n * one ≤ units negative rank)
    (hhigh : units negative rank < n * one + halfUnits) :
    Representable (units negative rank + halfUnits) := by
  have hhalf := one_eq_halfUnits
  have hpos := one_pos
  rcases Int.lt_or_gt_of_ne hne with hneg | hgt
  · have hmul : n * one ≤ -1 * one :=
      Int.mul_le_mul_of_nonneg_right (by omega) (Int.natCast_nonneg one)
    cases negative with
    | true =>
      apply representable_neg_add_half hsmall
      rw [units_true] at hhigh
      omega
    | false =>
      rw [units_false] at hhigh
      omega
  · obtain ⟨count, rfl⟩ := Int.eq_ofNat_of_zero_le hgt.le
    have hmul : 1 * one ≤ count * one := Nat.mul_le_mul_right one (Int.natCast_pos.mp hgt)
    rw [← Nat.cast_mul] at hlow hhigh
    cases negative with
    | true =>
      rw [units_true] at hlow
      omega
    | false =>
      rw [units_false] at hlow hhigh
      exact representable_add_half hsmall (Int.natCast_pos.mp hgt) (by omega) (by omega)

def lastDigit : Nat := twoTo 1020

def belowHalf : Int := halfUnits - lastDigit

theorem halfUnits_eq : halfUnits = 2 * binadeSize * lastDigit := by
  rw [halfUnits, lastDigit, binadeSize_eq_twoTo, ← twoTo_succ, ← twoTo_add]

theorem twoTo_eq_lastDigit : twoTo 1021 = 2 * lastDigit := by
  rw [lastDigit, ← twoTo_succ]

theorem lastDigit_pos : 0 < lastDigit := twoTo_pos 1020

/-- The last digits below one are doubled, so the middle below one is no number. -/
theorem shifted_belowOne :
    Shifted (1023 * binadeSize - 1) 1021 (2 * binadeSize - 1) :=
  ⟨by decide, Or.inr (by decide), by decide⟩

theorem unitsOf_belowOne : unitsOf (1023 * binadeSize - 1) = one - 2 * lastDigit := by
  rw [shifted_belowOne.unitsOf_eq, twoTo_eq_lastDigit, one_eq_halfUnits, halfUnits_eq,
    Nat.sub_mul, Nat.one_mul, Nat.mul_left_comm]

theorem unitsOf_one : unitsOf (1023 * binadeSize) = one := by
  have hshifted : Shifted (1023 * binadeSize) 1021 (2 * binadeSize) :=
    ⟨by decide, Or.inr (by decide), le_rfl⟩
  rw [hshifted.unitsOf_eq, twoTo_eq_lastDigit, one_eq_halfUnits, halfUnits_eq, Nat.mul_left_comm]

theorem binadeSize_mul_lastDigit_lt : binadeSize * lastDigit < halfUnits - lastDigit := by
  have hpos := lastDigit_pos
  have hmany : 3 * lastDigit ≤ binadeSize * lastDigit := Nat.mul_le_mul_right _ (by decide)
  rw [halfUnits_eq, Nat.mul_assoc]
  omega

/-- The exact sum does not reach one. -/
theorem belowHalf_add_half_ediv : (belowHalf + halfUnits) / one = 0 := by
  have hhalf := one_eq_halfUnits
  have hpos := lastDigit_pos
  have hfull := binadeSize_mul_lastDigit_lt
  rw [belowHalf]
  apply Int.ediv_eq_zero_of_lt <;> omega

/-- Between zero and one half the sum reaches one only from the greatest number: a number so
close to one half is a multiple of the last digit, as one half is. -/
theorem eq_belowHalf_of_nearestUnits {value : Int} (h : Representable value)
    (hlow : 0 ≤ value) (hhigh : value < halfUnits)
    (hone : nearestUnits (value + halfUnits) = one) : value = belowHalf := by
  have hclosest := nearestUnits_closest (value + halfUnits)
    (representable_units false (1023 * binadeSize - 1))
  have hhalf := one_eq_halfUnits
  have hpos := lastDigit_pos
  have hfull := binadeSize_mul_lastDigit_lt
  rw [units_false, unitsOf_belowOne, hone] at hclosest
  have hnear : (halfUnits : Int) - lastDigit ≤ value := by omega
  obtain ⟨negative, rank, rfl⟩ := h
  have hself := natAbs_units negative rank
  obtain ⟨digits, hdigits⟩ : lastDigit ∣ unitsOf rank := by
    have hlarge : binadeSize * lastDigit ≤ unitsOf rank := by omega
    rw [lastDigit] at hlarge ⊢
    exact twoTo_dvd_unitsOf hlarge
  have hlt : lastDigit * digits < lastDigit * (2 * binadeSize) := by
    rw [← hdigits, Nat.mul_comm lastDigit, ← halfUnits_eq]
    omega
  have hle := Nat.mul_le_mul_left lastDigit
    (Nat.le_sub_one_of_lt (Nat.lt_of_mul_lt_mul_left hlt))
  rw [← hdigits, Nat.mul_sub_one, Nat.mul_comm lastDigit, ← halfUnits_eq] at hle
  rw [belowHalf]
  omega

/-- In the middle below one the even rank is the one above. -/
theorem nearestUnits_belowHalf : nearestUnits (belowHalf + halfUnits) = one := by
  have hhalf := one_eq_halfUnits
  have hfull := binadeSize_mul_lastDigit_lt
  have hrounds : RoundsTo (one - lastDigit) 1 (1023 * binadeSize) := by
    have hnext := unitsOf_lt_succ (1023 * binadeSize)
    refine ⟨?_, ?_, fun _ => by decide⟩
    · rw [unitsOf_belowOne, unitsOf_one]
      omega
    · rw [unitsOf_one] at hnext ⊢
      omega
  have hsum : belowHalf + halfUnits = signed false (one - lastDigit) := by
    rw [belowHalf, signed, if_neg Bool.false_ne_true]
    omega
  rw [hsum, nearestUnits_signed, hrounds.nearestRank_eq Nat.one_pos, units_false, unitsOf_one]

/-- Below 2^52 the rounded sum with one half does not reach the next whole number, with one
exception. A number that close to its rounded sum is no less than the whole number nearest to
it, and the sum is exact there. -/
theorem nearestUnits_add_half_ediv (hsmall : unitsOf rank < binadeSize * one)
    (hne : units negative rank ≠ belowHalf) :
    nearestUnits (units negative rank + halfUnits) / one =
      (units negative rank + halfUnits) / one := by
  have hhalf := one_eq_halfUnits
  have hself := natAbs_units negative rank
  have hmember := representable_units negative rank
  have hsum : (units negative rank + halfUnits).natAbs ≤ (2 * binadeSize - 1) * one := by
    have hmore : (binadeSize + 1) * one ≤ (2 * binadeSize - 1) * one :=
      Nat.mul_le_mul_right one (by decide)
    rw [Nat.add_mul, Nat.one_mul] at hmore
    omega
  have hbounds := nearestUnits_whole_bounds hsum
  have hnear := (nearestUnits_add_half_bounds hmember).2
  have hlow := ediv_one_mul_le (units negative rank + halfUnits)
  have hhigh := lt_ediv_one_mul_add (units negative rank + halfUnits)
  generalize (units negative rank + halfUnits) / one = n at *
  rw [Int.ediv_eq_iff_of_pos (Int.natCast_pos.mpr one_pos)]
  refine ⟨hbounds.1, lt_of_le_of_ne hbounds.2 fun hreached => ?_⟩
  have hover : n * one ≤ units negative rank := by omega
  have hless : units negative rank < n * one + halfUnits := by omega
  by_cases hzero : n = 0
  · rw [hzero, zero_mul, zero_add] at hreached hless
    rw [hzero, zero_mul] at hover
    exact hne (eq_belowHalf_of_nearestUnits hmember hover hless hreached)
  · rw [nearestUnits_eq_self (representable_add_half_of_above hsmall hzero hover hless)] at hreached
    omega

/-! ### Whole numbers -/

theorem whole_add_half_ediv (n : Int) : (n * one + halfUnits) / one = n := by
  have hhalf := one_eq_halfUnits
  have hpos := one_pos
  rw [Int.ediv_eq_iff_of_pos (Int.natCast_pos.mpr hpos)]
  omega

/-- From 2^53 on every number is even. -/
theorem even_of_le {n : Nat} (h : unitsOf rank = n * one) (hlarge : 2 * binadeSize ≤ n) :
    n % 2 = 0 := by
  have hunit : twoTo (1074 + 1) = 2 * one := by rw [one, ← twoTo_succ]
  have hmin : binadeSize * twoTo (1074 + 1) ≤ unitsOf rank := by
    rw [hunit, h, ← Nat.mul_assoc, Nat.mul_comm binadeSize]
    exact Nat.mul_le_mul_right one hlarge
  have hdvd := twoTo_dvd_unitsOf hmin
  rw [hunit, h] at hdvd
  exact Nat.mod_eq_zero_of_dvd (Nat.dvd_of_mul_dvd_mul_right one_pos hdvd)

/-- From 2^52 on an even rank stands for an even number. -/
theorem even_of_rank_even {n : Nat} (h : unitsOf rank = n * one) (hlarge : binadeSize ≤ n)
    (heven : rank % 2 = 0) : n % 2 = 0 := by
  by_cases hhuge : 2 * binadeSize ≤ n
  · exact even_of_le h hhuge
  · have hshifted : Shifted (1074 * binadeSize + n) 1074 n :=
      ⟨rfl, Or.inr hlarge, Nat.le_of_not_le hhuge⟩
    have hrank : rank = 1074 * binadeSize + n := by
      apply unitsOf_strictMono.injective
      rw [h, hshifted.unitsOf_eq, one]
    rw [← hshifted.mod_two, ← hrank, heven]

theorem unitsOf_eq_of_units {n : Int} (h : units negative rank = n * one) :
    unitsOf rank = n.natAbs * one := by
  rw [← natAbs_units negative, h, Int.natAbs_mul, Int.natAbs_natCast]

/-- Where whole numbers are next to each other, the sum with one half is their middle, equally
close to both, and is rounded to the even one. -/
theorem nearestUnits_middle {n i : Int} (hsum : nearestUnits (n * one + halfUnits) = i * one)
    (hi : i = n ∨ i = n + 1) (hlarge : binadeSize ≤ i.natAbs) : i % 2 = 0 := by
  have hhalf := one_eq_halfUnits
  have hpos := one_pos
  have hunits := unitsOf_eq_of_units hsum
  have heven : i.natAbs % 2 = 0 := by
    by_cases hhuge : 2 * binadeSize ≤ i.natAbs
    · exact even_of_le hunits hhuge
    · apply even_of_rank_even hunits hlarge
      have hneighbour : i * one = n * one ∨ i * one = n * one + one :=
        hi.imp (fun hself => by rw [hself]) (fun hnext => by rw [hnext, Int.add_mul, Int.one_mul])
      have hother : Representable ((2 * n + 1 - i) * one) := representable_mul_one (by omega)
      have hproduct : (2 * n + 1 - i) * one = 2 * (n * one) + one - i * one := by ring
      rw [hproduct] at hother
      apply even_of_closest hother
      · rw [hsum]
        omega
      · rw [hsum]
        omega
  omega

/-- From 2^52 on the sum with one half is rounded to an even number. -/
theorem nearestUnits_add_half_of_whole {n : Int} (h : Representable (n * one))
    (hlarge : binadeSize ≤ n.natAbs) :
    nearestUnits (n * one + halfUnits) / one = n + n % 2 := by
  have hhalf := one_eq_halfUnits
  have hpos : (0 : Int) < one := Int.natCast_pos.mpr one_pos
  by_cases hleast : n = -binadeSize
  · have hsum : n * one + halfUnits = (1 - 2 * binadeSize) * halfUnits := by
      rw [hleast, hhalf]
      push_cast
      ring
    have hexact : Representable (n * one + halfUnits) := by
      rw [hsum]
      apply representable_mul_halfUnits
      have := binadeSize_pos
      omega
    have heven : n % 2 = 0 := by
      have := binadeSize_even
      omega
    rw [nearestUnits_eq_self hexact, whole_add_half_ediv, heven, Int.add_zero]
  obtain ⟨hlow, hhigh⟩ := nearestUnits_add_half_bounds h
  have hmagnitude : binadeSize * one ≤ (nearestUnits (n * one + halfUnits)).natAbs := by
    rcases Int.lt_or_le n 0 with hneg | hnonneg
    · have hmul : (n + 1) * one ≤ -binadeSize * one :=
        Int.mul_le_mul_of_nonneg_right (by omega) hpos.le
      rw [Int.add_mul, neg_mul, ← Nat.cast_mul] at hmul
      omega
    · have hmul : (binadeSize : Int) * one ≤ n * one :=
        Int.mul_le_mul_of_nonneg_right (by omega) hpos.le
      rw [← Nat.cast_mul] at hmul
      omega
  obtain ⟨i, hi, hmany⟩ := (representable_nearestUnits _).exists_eq_mul_one hmagnitude
  rw [hi] at hlow hhigh
  have hbelow : n ≤ i := Int.le_of_mul_le_mul_right hlow hpos
  have habove : i ≤ n + 1 := by
    apply Int.le_of_mul_le_mul_right _ hpos
    rwa [Int.add_mul, Int.one_mul]
  have heven := nearestUnits_middle hi (by omega) hmany
  rw [hi, Int.mul_ediv_cancel _ hpos.ne']
  omega

end XPathQuery.Double
