import XPathQuery.Proofs.NearestRanks
import XPathQuery.Proofs.NumberTexts

/-!
Numbers written and read back. A decimal is the fraction of two whole numbers, its text is read
as that fraction, and the one that is chosen for a magnitude rounds to it. So the text of a
finite number is a decimal without an exponent that is read as the same number.
-/
namespace XPathQuery

namespace Decimal

/-! ### Decimals as fractions -/

def numerator (d : Decimal) : Nat :=
  match d.exponent with
  | .ofNat zeros => d.digits * tenTo zeros
  | .negSucc _ => d.digits

def denominator (d : Decimal) : Nat :=
  match d.exponent with
  | .ofNat _ => 1
  | .negSucc places => tenTo (places + 1)

theorem numerator_negSucc (digits places : Nat) : numerator ⟨digits, .negSucc places⟩ = digits := rfl

theorem denominator_negSucc (digits places : Nat) :
    denominator ⟨digits, .negSucc places⟩ = tenTo (places + 1) := rfl

theorem tenTo_pos (exponent : Nat) : 0 < tenTo exponent := Nat.pow_pos (by decide)

theorem tenTo_succ (exponent : Nat) : tenTo (exponent + 1) = 10 * tenTo exponent := Nat.pow_succ'

theorem tenTo_eq (exponent : Nat) : tenTo exponent = Nat.pow 5 exponent * Double.twoTo exponent :=
  Nat.mul_pow 5 2 exponent

theorem denominator_pos (d : Decimal) : 0 < d.denominator := by
  unfold denominator
  split
  · exact Nat.one_pos
  · exact tenTo_pos _

theorem compareFraction_eq (d : Decimal) (n m : Nat) :
    d.compareFraction n m = compare (d.numerator * m) (n * d.denominator) := by
  obtain ⟨digits, zeros | places⟩ := d
  · exact congrArg (compare _) (Nat.mul_one n).symm
  · rfl

theorem roundsTo_iff (rank : Nat) (d : Decimal) :
    roundsTo rank d = true ↔
      Double.RoundsTo (d.numerator * Double.one) d.denominator rank := by
  have hscale : d.numerator * (2 * Double.one) = 2 * (d.numerator * Double.one) := by ring
  simp only [roundsTo, compareFraction_eq, hscale, Bool.and_eq_true, Bool.or_eq_true, beq_iff_eq,
    Nat.compare_eq_gt, Nat.compare_eq_lt, Nat.compare_eq_eq]
  constructor
  · rintro ⟨hlow, hhigh⟩
    refine ⟨?_, ?_, ?_⟩ <;> omega
  · intro h
    have hlow := h.low
    have hhigh := h.high
    have heven := h.even
    omega

/-- A decimal rounds to a rank when the rank is nearest to its value in units. -/
theorem nearestRank_eq_iff_roundsTo (rank : Nat) (d : Decimal) :
    Double.nearestRank (d.numerator * Double.one) d.denominator = rank ↔
      roundsTo rank d = true := by
  rw [roundsTo_iff, Double.nearestRank_eq_iff d.denominator_pos]

/-! ### The chosen decimal -/

theorem roundsTo_of_candidate? {rank : Nat} {exponent : Int} {d : Decimal}
    (h : candidate? rank exponent = some d) : roundsTo rank d = true := by
  simp only [candidate?] at h
  split at h
  · rename_i hlow hhigh
    split at h <;> cases h <;> assumption
  · cases h
    assumption
  · cases h
    assumption
  · cases h

/-- The carry into a new digit keeps the value. -/
theorem normal_fraction (d : Decimal) :
    d.normal.numerator * d.denominator = d.numerator * d.normal.denominator := by
  obtain ⟨digits, exponent⟩ := d
  unfold normal
  split
  · rename_i hdigits
    obtain rfl : digits = 10 := hdigits
    cases exponent with
    | ofNat zeros =>
      change 1 * tenTo (zeros + 1) * 1 = 10 * tenTo zeros * 1
      rw [tenTo_succ, Nat.one_mul]
    | negSucc places =>
      cases places with
      | zero => rfl
      | succ places => exact (Nat.one_mul _).trans (tenTo_succ (places + 1))
  · rfl

/-- A magnitude in units of 2^-n has n places, which are left when its fives are added. -/
theorem nearestRank_places (rank places : Nat) :
    Double.nearestRank (Double.unitsOf rank * Nat.pow 5 places * Double.twoTo places)
      (tenTo places) = rank := by
  rw [Nat.mul_assoc, ← tenTo_eq]
  exact Double.nearestRank_unitsOf rank (tenTo_pos places)

theorem nearestRank_exact (rank : Nat) :
    Double.nearestRank ((exact rank).numerator * Double.one) (exact rank).denominator = rank := by
  have hexponent : (-1074 : Int) = .negSucc 1073 := rfl
  have hplaces : 1073 + 1 = 1074 := rfl
  rw [exact, hexponent, numerator_negSucc, denominator_negSucc, hplaces, Double.one]
  generalize 1074 = places
  exact nearestRank_places rank places

/-- Whichever decimal is chosen, the magnitude it was chosen for is nearest to it. -/
theorem nearestRank_shortestFrom (rank fuel : Nat) (exponent : Int) :
    let d := shortestFrom rank fuel exponent
    Double.nearestRank (d.numerator * Double.one) d.denominator = rank := by
  induction fuel generalizing exponent with
  | zero => exact nearestRank_exact rank
  | succ more ih =>
    simp only [shortestFrom]
    split
    · rename_i d hd
      have hrounds := (nearestRank_eq_iff_roundsTo rank d).mpr (roundsTo_of_candidate? hd)
      have hsame : d.normal.numerator * Double.one * d.denominator =
          d.numerator * Double.one * d.normal.denominator := by
        rw [Nat.mul_right_comm, normal_fraction, Nat.mul_right_comm]
      rw [Double.nearestRank_congr d.normal.denominator_pos d.denominator_pos hsame, hrounds]
    · exact ih (exponent - 1)

/-! ### The text of a decimal -/

theorem digitsValue_eq (cs : List Char) : digitsValue cs = Nat.ofDigitChars 10 cs 0 :=
  Nat.ofDigitChars_eq_foldl.symm

theorem digitsValue_append (left right : List Char) :
    digitsValue (left ++ right) = tenTo right.length * digitsValue left + digitsValue right := by
  rw [digitsValue_eq, Nat.ofDigitChars_append, Nat.ofDigitChars_eq_ofDigitChars_zero]
  rfl

theorem digitsValue_zeros (n : Nat) : digitsValue (List.replicate n '0') = 0 := by
  rw [digitsValue_eq, Nat.ofDigitChars_replicate_zero, Nat.mul_zero]

theorem digitsValue_decimalDigits (n : Nat) : digitsValue (decimalDigits n) = n := by
  rw [digitsValue_eq]
  exact Nat.ofDigitChars_ten_toDigits

theorem isDigits_decimalDigits (n : Nat) : IsDigits (decimalDigits n) :=
  ⟨Nat.toDigits_ne_nil, fun _ hc => Nat.isDigit_of_mem_toDigits (by decide) (by decide) hc⟩

theorem isDigit_of_mem_zeros {n : Nat} : ∀ c ∈ List.replicate n '0', c.isDigit = true := by
  intro c hc
  rw [List.eq_of_mem_replicate hc]
  rfl

end Decimal

def pointed (whole fraction : List Char) : List Char :=
  if fraction.isEmpty then whole else whole ++ '.' :: fraction

structure IsPositional (text whole fraction : List Char) : Prop where
  eq_pointed : text = pointed whole fraction
  whole : IsDigits whole
  fraction : ∀ c ∈ fraction, c.isDigit = true

namespace IsPositional

variable {text whole fraction : List Char}

theorem isNumeral (h : IsPositional text whole fraction) : IsNumeral text := by
  obtain ⟨rfl, hwhole, hfraction⟩ := h
  unfold pointed
  split
  · exact .whole hwhole
  · rename_i hne
    exact .fraction hwhole ⟨fun hnil => hne (List.isEmpty_iff.mpr hnil), hfraction⟩

/-- The reader divides all digits by a power of ten for the digits after the point. -/
theorem ofDigits_eq (h : IsPositional text whole fraction) (negative : Bool) :
    Double.ofDigits negative text =
      Double.nearest negative (Decimal.digitsValue (whole ++ fraction) * Double.one)
        (Decimal.tenTo fraction.length) := by
  obtain ⟨rfl, hwhole, hfraction⟩ := h
  have hdigits : ∀ c ∈ whole, (c != '.') = true := by
    intro c hc
    rw [bne_iff_ne]
    rintro rfl
    exact not_mem_point hwhole.2 hc
  unfold pointed
  split
  · rename_i hempty
    obtain rfl := List.isEmpty_iff.mp hempty
    obtain ⟨htake, hdrop⟩ := span_exact (· != '.') whole [] hdigits (stopsAt_nil _)
    rw [List.append_nil] at htake hdrop
    simp only [Double.ofDigits, htake, hdrop, List.drop_nil]
  · obtain ⟨htake, hdrop⟩ :=
      span_exact (· != '.') whole ('.' :: fraction) hdigits ((stopsAt_cons _ _ _).mpr rfl)
    simp only [Double.ofDigits, htake, hdrop, List.drop_succ_cons, List.drop_zero]

end IsPositional

namespace Decimal

/-- The text of a decimal shows its numerator, with as many digits after the point as its
denominator has zeros. -/
theorem exists_positional_text (d : Decimal) :
    ∃ whole fraction, IsPositional d.text whole fraction ∧
      digitsValue (whole ++ fraction) = d.numerator ∧ tenTo fraction.length = d.denominator := by
  obtain ⟨digits, zeros | places⟩ := d
  · obtain ⟨hne, hdigits⟩ := isDigits_decimalDigits digits
    refine ⟨decimalDigits digits ++ List.replicate zeros '0', [],
      ⟨rfl, ⟨List.append_ne_nil_of_left_ne_nil hne _, ?_⟩, List.forall_mem_nil _⟩, ?_, rfl⟩
    · exact List.forall_mem_append.mpr ⟨hdigits, isDigit_of_mem_zeros⟩
    · rw [List.append_nil, digitsValue_append, digitsValue_zeros, digitsValue_decimalDigits,
        List.length_replicate, Nat.add_zero]
      exact Nat.mul_comm _ _
  · let low := digits % tenTo (places + 1)
    let padding := List.replicate (places + 1 - (decimalDigits low).length) '0'
    have hlow : (decimalDigits low).length ≤ places + 1 :=
      (Nat.length_toDigits_le_iff (by decide) (Nat.succ_pos _)).mpr
        (Nat.mod_lt digits (tenTo_pos _))
    have hlength : (padding ++ decimalDigits low).length = places + 1 := by
      rw [List.length_append, List.length_replicate, Nat.sub_add_cancel hlow]
    have hne : padding ++ decimalDigits low ≠ [] := by
      rw [← List.length_pos_iff, hlength]
      exact Nat.succ_pos _
    refine ⟨decimalDigits (digits / tenTo (places + 1)), padding ++ decimalDigits low,
      ⟨?_, isDigits_decimalDigits _, ?_⟩, ?_, ?_⟩
    · rw [pointed, if_neg (by rwa [List.isEmpty_iff])]
      rfl
    · exact List.forall_mem_append.mpr ⟨isDigit_of_mem_zeros, (isDigits_decimalDigits low).2⟩
    · rw [digitsValue_append, digitsValue_append padding, digitsValue_zeros, Nat.mul_zero,
        Nat.zero_add, digitsValue_decimalDigits, digitsValue_decimalDigits, hlength]
      exact Nat.div_add_mod digits _
    · rw [hlength]
      rfl

/-- The text of the decimal chosen for a rank is read as the number of that rank. -/
theorem ofDigits_text_shortest (negative : Bool) (rank : Fin rankCount) :
    Double.ofDigits negative (shortest rank).text = .finite negative rank := by
  obtain ⟨whole, fraction, htext, hnumerator, hdenominator⟩ :=
    exists_positional_text (shortest rank)
  have hrank : Double.nearestRank ((shortest rank).numerator * Double.one)
      (shortest rank).denominator = rank := nearestRank_shortestFrom rank 17 _
  rw [htext.ofDigits_eq, hnumerator, hdenominator, Double.nearest, hrank]
  exact dif_pos rank.isLt

end Decimal

/-- Nothing stands around the text of a number. -/
theorem IsPositional.isNumberText {digits whole fraction : List Char}
    (h : IsPositional digits whole fraction) (negative : Bool) :
    IsNumberText (Double.signText negative ++ digits) negative digits :=
  ⟨h.isNumeral, [], [], (List.append_nil _).symm, List.forall_mem_nil _, List.forall_mem_nil _⟩

/-- A finite number is written without an exponent, and is read back from its text. Negative
zero is read as zero. -/
theorem Scalar.toNumber_toText_finite (negative : Bool) (rank : Fin rankCount) :
    let text := (Scalar.number (.finite negative rank)).toText
    (∃ sign digits whole fraction, text.toList = Double.signText sign ++ digits ∧
        IsPositional digits whole fraction) ∧
      (Scalar.string text).toNumber =
        if rank.val = 0 then Double.zero else .finite negative rank := by
  intro text
  by_cases hzero : rank.val = 0
  · have htext : text.toList = ['0'] := by
      simp only [text, Scalar.toText, Scalar.numberText, String.toList_ofList, Double.text,
        if_pos hzero]
    have hpositional : IsPositional ['0'] ['0'] [] :=
      ⟨rfl, ⟨nofun, forall_mem_of_all (by decide)⟩, List.forall_mem_nil _⟩
    refine ⟨⟨false, _, _, _, htext, hpositional⟩, ?_⟩
    have hvalue : Decimal.digitsValue (['0'] ++ []) = 0 := rfl
    rw [if_pos hzero, Scalar.toNumber, htext]
    refine (hpositional.isNumberText false).toNumber_eq.trans ?_
    rw [hpositional.ofDigits_eq, hvalue, Nat.zero_mul, Double.nearest,
      Double.nearestRank_zero (Decimal.tenTo_pos _)]
    rfl
  · have htext : text.toList = Double.signText negative ++ (Decimal.shortest rank).text := by
      simp only [text, Scalar.toText, Scalar.numberText, String.toList_ofList, Double.text,
        if_neg hzero]
    obtain ⟨whole, fraction, hpositional, -, -⟩ :=
      Decimal.exists_positional_text (Decimal.shortest rank)
    refine ⟨⟨negative, _, whole, fraction, htext, hpositional⟩, ?_⟩
    rw [if_neg hzero, Scalar.toNumber, htext, (hpositional.isNumberText negative).toNumber_eq]
    exact Decimal.ofDigits_text_shortest negative rank

end XPathQuery
