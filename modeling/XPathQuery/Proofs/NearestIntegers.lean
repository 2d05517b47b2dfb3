import XPathQuery.Function.Apply
import XPathQuery.Proofs.HalfSums
import Mathlib.Algebra.Order.Field.Rat
import Mathlib.Tactic.NormNum

/-!
Rounding to the nearest integer. A half belongs to the integer above it. The floor of the sum with
one half is that integer for all finite numbers except those whose sum is rounded up to a whole
number, and there it is the next one. Both functions that round do so in this way.
-/
namespace XPathQuery

namespace Double

def value? (x : Double) : Option ℚ := x.units?.map fun units : Int => (units : ℚ) / one

/-- An integer is nearest to all values from a half below it to before the half above it. -/
def IsNearestInteger (value : ℚ) (n : ℤ) : Prop := n - 1 / 2 ≤ value ∧ value < n + 1 / 2

/-- The values whose sum with one half is rounded up to a whole number: the greatest one below
one half, and the odd integers between 2^52 and 2^53. -/
def RoundsAstray (value : ℚ) : Prop :=
  value = 1 / 2 - 1 / 2 ^ 54 ∨
    ∃ n : ℤ, value = n ∧ n % 2 = 1 ∧ 2 ^ 52 < |n| ∧ |n| < 2 ^ 53

structure IsRounded (x : Double) (value : ℚ) (result : Double) (n : ℤ) : Prop where
  value_eq : result.value? = some (n : ℚ)
  nearest_iff : IsNearestInteger value n ↔ ¬ RoundsAstray value
  previous_iff : IsNearestInteger value (n - 1) ↔ RoundsAstray value
  unchanged_iff : result = x ↔ (∃ m : ℤ, value = m) ∧ ¬ RoundsAstray value

/-! ### Values in units -/

theorem one_cast_pos : (0 : ℚ) < one := Nat.cast_pos.mpr one_pos

theorem one_cast : (one : ℚ) = 2 * halfUnits := by
  rw [one_eq_halfUnits]
  push_cast
  rfl

theorem isNearestInteger_iff (units n : Int) :
    IsNearestInteger (units / one) n ↔ (units + halfUnits) / one = n := by
  have hlow : (n : ℚ) - 1 / 2 ≤ units / one ↔ n * one ≤ units + halfUnits := by
    rw [le_div_iff₀ one_cast_pos, sub_mul, one_cast, one_eq_halfUnits, ← @Int.cast_le ℚ]
    push_cast
    constructor <;> intro h <;> linarith
  have hhigh : units / one < (n : ℚ) + 1 / 2 ↔ units + halfUnits < n * one + one := by
    rw [div_lt_iff₀ one_cast_pos, add_mul, one_cast, one_eq_halfUnits, ← @Int.cast_lt ℚ]
    push_cast
    constructor <;> intro h <;> linarith
  rw [IsNearestInteger, hlow, hhigh, Int.ediv_eq_iff_of_pos (Int.natCast_pos.mpr one_pos)]

theorem units_div_one_eq_iff (units n : Int) : (units : ℚ) / one = n ↔ units = n * one := by
  rw [div_eq_iff one_cast_pos.ne']
  exact_mod_cast Iff.rfl

theorem units_div_one_eq_belowHalf_iff (units : Int) :
    (units : ℚ) / one = 1 / 2 - 1 / 2 ^ 54 ↔ units = belowHalf := by
  have hsize : (binadeSize : ℚ) = 2 ^ 52 := by norm_num [binadeSize]
  have hhalf : (halfUnits : ℚ) = 2 ^ 53 * lastDigit := by
    rw [halfUnits_eq]
    push_cast
    rw [hsize]
    ring
  have hproduct : (1 / 2 - 1 / 2 ^ 54) * (one : ℚ) = (belowHalf : ℚ) := by
    rw [belowHalf, one_cast]
    push_cast
    rw [hhalf]
    ring
  rw [div_eq_iff one_cast_pos.ne', hproduct, Int.cast_inj]

theorem roundsAstray_iff (units : Int) :
    RoundsAstray (units / one) ↔ units = belowHalf ∨
      ∃ n : Int, units = n * one ∧ n % 2 = 1 ∧ binadeSize < n.natAbs ∧
        n.natAbs < 2 * binadeSize := by
  have hlow : ∀ n : Int, 2 ^ 52 < |n| ↔ binadeSize < n.natAbs := by
    intro n
    rw [Int.abs_eq_natAbs]
    exact Int.ofNat_lt (n := binadeSize)
  have hhigh : ∀ n : Int, |n| < 2 ^ 53 ↔ n.natAbs < 2 * binadeSize := by
    intro n
    rw [Int.abs_eq_natAbs]
    exact Int.ofNat_lt (m := 2 * binadeSize)
  simp only [RoundsAstray, units_div_one_eq_belowHalf_iff, units_div_one_eq_iff, hlow, hhigh]

/-! ### The floor of the sum with one half -/

variable {negative : Bool} {rank : Nat}

/-- A number that rounds astray is rounded to the integer after the nearest one. -/
theorem nearestUnits_add_half_astray (h : RoundsAstray (units negative rank / one)) :
    nearestUnits (units negative rank + halfUnits) / one =
      (units negative rank + halfUnits) / one + 1 := by
  rcases (roundsAstray_iff _).mp h with heq | ⟨n, heq, hodd, hlarge, -⟩
  · rw [heq, nearestUnits_belowHalf, belowHalf_add_half_ediv,
      Int.ediv_self (Int.natCast_ne_zero.mpr one_pos.ne'), Int.zero_add]
  · have hmember : Representable (n * one) := heq ▸ representable_units negative rank
    rw [heq, nearestUnits_add_half_of_whole hmember hlarge.le, whole_add_half_ediv, hodd]

/-- All other numbers are rounded to the nearest integer. -/
theorem nearestUnits_add_half_straight (h : ¬ RoundsAstray (units negative rank / one)) :
    nearestUnits (units negative rank + halfUnits) / one =
      (units negative rank + halfUnits) / one := by
  rw [roundsAstray_iff, not_or] at h
  obtain ⟨hne, hodd⟩ := h
  by_cases hsmall : unitsOf rank < binadeSize * one
  · exact nearestUnits_add_half_ediv hsmall hne
  have hmember := representable_units negative rank
  obtain ⟨n, hn, hlarge⟩ := hmember.exists_eq_mul_one
    (natAbs_units negative rank ▸ Nat.not_lt.mp hsmall)
  have heven : n % 2 = 0 := by
    by_contra hrest
    have hsize := binadeSize_even
    have hhuge : ¬ 2 * binadeSize ≤ n.natAbs := fun hle => by
      have := even_of_le (unitsOf_eq_of_units hn) hle
      omega
    exact hodd ⟨n, hn, by omega, by omega, by omega⟩
  rw [hn, nearestUnits_add_half_of_whole (hn ▸ hmember) hlarge, whole_add_half_ediv, heven,
    Int.add_zero]

/-- A number other than zero is determined by its units. -/
theorem eq_finite_of_units? {x : Double} {rank : Fin rankCount} (hne : rank.val ≠ 0)
    (h : x.units? = some (units negative rank)) : x = finite negative rank := by
  obtain ⟨sign, place, rfl, hunits⟩ := exists_of_units?_eq_some h
  have hpos := unitsOf_pos (Nat.pos_of_ne_zero hne)
  obtain rfl : place = rank := by
    apply Fin.ext
    apply unitsOf_strictMono.injective
    rw [← natAbs_units sign, hunits, natAbs_units]
  rcases Bool.eq_or_eq_not sign negative with rfl | rfl
  · rfl
  · have hself := natAbs_units negative place
    rw [units_not] at hunits
    omega

/-- The integer that a number is rounded to is the nearest one or the next. -/
theorem nearestUnits_add_half_cases (negative : Bool) (rank : Nat) :
    RoundsAstray (units negative rank / one) ∧
        nearestUnits (units negative rank + halfUnits) / one =
          (units negative rank + halfUnits) / one + 1 ∨
      ¬ RoundsAstray (units negative rank / one) ∧
        nearestUnits (units negative rank + halfUnits) / one =
          (units negative rank + halfUnits) / one := by
  by_cases h : RoundsAstray (units negative rank / one)
  · exact Or.inl ⟨h, nearestUnits_add_half_astray h⟩
  · exact Or.inr ⟨h, nearestUnits_add_half_straight h⟩

theorem round_eq_self_iff (negative : Bool) (rank : Fin rankCount) :
    round (finite negative rank) = finite negative rank ↔
      nearestUnits (units negative rank + halfUnits) / one * one = units negative rank := by
  have hround := units?_round negative rank
  constructor
  · intro h
    rw [h] at hround
    exact (Option.some_inj.mp hround).symm
  · intro h
    rw [h] at hround
    by_cases hzero : rank.val = 0
    · rw [round, if_pos hzero]
    · exact eq_finite_of_units? hzero hround

/-- Rounding leads to the nearest integer exactly for the numbers that do not round astray, and
one further for those that do. -/
theorem round_isRounded (negative : Bool) (rank : Fin rankCount) :
    ∃ value n, value? (finite negative rank) = some value ∧
      IsRounded (finite negative rank) value (round (finite negative rank)) n := by
  have hcases := nearestUnits_add_half_cases negative rank
  refine ⟨_, nearestUnits (units negative rank + halfUnits) / one, rfl, ?_, ?_, ?_, ?_⟩
  · rw [value?, units?_round, Option.map_some]
    push_cast
    rw [mul_div_cancel_right₀ _ one_cast_pos.ne']
  · rw [isNearestInteger_iff]
    rcases hcases with ⟨h, hnext⟩ | ⟨h, hself⟩
    · exact iff_of_false (by omega) (not_not_intro h)
    · exact iff_of_true hself.symm h
  · rw [isNearestInteger_iff]
    rcases hcases with ⟨h, hnext⟩ | ⟨h, hself⟩
    · exact iff_of_true (by omega) h
    · exact iff_of_false (by omega) h
  · simp only [round_eq_self_iff, units_div_one_eq_iff]
    constructor
    · intro h
      have hself := whole_add_half_ediv (nearestUnits (units negative rank + halfUnits) / one)
      rw [h] at hself
      rcases hcases with ⟨-, hnext⟩ | ⟨hstraight, -⟩
      · omega
      · exact ⟨⟨_, h.symm⟩, hstraight⟩
    · rintro ⟨⟨m, hm⟩, h⟩
      rw [nearestUnits_add_half_straight h, hm, whole_add_half_ediv]

end Double

/-- The function `round` leads to an integer, the nearest one unless the number rounds astray. The
function `substring` rounds its start and its length in the same way. -/
theorem callFunction_round (tree : Tree) (context : Context) (negative : Bool)
    (rank : Fin rankCount) :
    ∃ value n result, (Double.finite negative rank).value? = some value ∧
      callFunction tree context "round" [.number (.finite negative rank)] =
        .ok (.number result) ∧
      Double.IsRounded (.finite negative rank) value result n ∧
      (∀ text, callFunction tree context "substring"
          [.string text, .number (.finite negative rank)] =
        .ok (.string (String.ofList (substringFrom result (.infinite false) 1 text.toList)))) ∧
      ∀ text start, callFunction tree context "substring"
          [.string text, .number start, .number (.finite negative rank)] =
        .ok (.string (String.ofList
          (substringFrom start.round (start.round.add result) 1 text.toList))) := by
  obtain ⟨value, n, hvalue, hrounded⟩ := Double.round_isRounded negative rank
  exact ⟨value, n, _, hvalue, rfl, hrounded, fun _ => rfl, fun _ _ => rfl⟩

/-- The greatest number below one half is rounded to one, though zero is nearest. -/
theorem callFunction_round_belowHalf :
    callFunction (.node ⟨.root, none, none, "", []⟩ [] []) (.ofNode []) "round"
        [.number (.ofBits 0x3FDFFFFFFFFFFFFF)] = .ok (.number (.ofBits 0x3FF0000000000000)) ∧
      (Double.ofBits 0x3FDFFFFFFFFFFFFF).value? = some (1 / 2 - 1 / 2 ^ 54) ∧
      (Double.ofBits 0x3FF0000000000000).value? = some 1 ∧
      ¬ Double.IsNearestInteger (1 / 2 - 1 / 2 ^ 54) 1 ∧
      Double.IsNearestInteger (1 / 2 - 1 / 2 ^ 54) 0 := by
  have hround : (Double.ofBits 0x3FDFFFFFFFFFFFFF).round = .ofBits 0x3FF0000000000000 := by
    decide +kernel
  refine ⟨?_, by decide +kernel, by decide +kernel, ?_, ?_⟩
  · rw [← hround]
    rfl
  · norm_num [Double.IsNearestInteger]
  · norm_num [Double.IsNearestInteger]

end XPathQuery
