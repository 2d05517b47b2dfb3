import XPathQuery.Value
import XPathQuery.Proofs.ParseRoundtrip

/-!
Texts of numbers. The tests on single characters accept just the numerals of expressions, so a
text is a number if and only if it is a numeral after at most one minus sign, with spaces of the
wide sense around both. No other text reaches the reader of decimals.
-/
namespace XPathQuery

open Character

namespace Text

/-- Only spaces are trimmed away. -/
theorem exists_trim (text : List Char) :
    ∃ before after, text = before ++ trim text ++ after ∧
      (∀ c ∈ before, isSpace c = true) ∧ ∀ c ∈ after, isSpace c = true := by
  have hspaces : ∀ cs : List Char, ∀ c ∈ cs.takeWhile isSpace, isSpace c = true :=
    fun _ _ => List.mem_takeWhile_imp
  refine ⟨text.takeWhile isSpace, ((trimStart text).reverse.takeWhile isSpace).reverse, ?_,
    hspaces text, fun c hc => hspaces _ c (List.mem_reverse.mp hc)⟩
  have hend : trimStart text =
      trim text ++ ((trimStart text).reverse.takeWhile isSpace).reverse := by
    rw [trim, trimEnd, ← List.reverse_append, List.takeWhile_append_dropWhile,
      List.reverse_reverse]
  rw [List.append_assoc, ← hend, trimStart, List.takeWhile_append_dropWhile]

/-- The tests on the characters of a text accept the numerals. -/
theorem isUnsignedNumber_iff (cs : List Char) : isUnsignedNumber cs = true ↔ IsNumeral cs := by
  rw [isUnsignedNumber, Bool.and_eq_true, Bool.and_eq_true, List.any_eq_true, List.all_eq_true,
    decide_eq_true_iff]
  constructor
  · rintro ⟨⟨⟨d, hd, hdigit⟩, hall⟩, hcount⟩
    have hdigits : ∀ c ∈ cs, c ≠ '.' → c.isDigit = true := by
      intro c hc hne
      simpa [isDigitOrPoint, hne] using hall c hc
    by_cases hpoint : '.' ∈ cs
    · obtain ⟨whole, fraction, rfl⟩ := List.append_of_mem hpoint
      rw [List.count_append, List.count_cons_self] at hcount
      have hbefore : '.' ∉ whole := List.count_eq_zero.mp (by omega)
      have hbehind : '.' ∉ fraction := List.count_eq_zero.mp (by omega)
      have hwhole : ∀ c ∈ whole, c.isDigit = true := fun c hc =>
        hdigits c (List.mem_append_left _ hc) (ne_of_mem_of_not_mem hc hbefore)
      have hfraction : ∀ c ∈ fraction, c.isDigit = true := fun c hc =>
        hdigits c (List.mem_append_right _ (List.mem_cons_of_mem _ hc))
          (ne_of_mem_of_not_mem hc hbehind)
      by_cases hnil : whole = []
      · subst hnil
        rw [List.nil_append] at hd
        obtain rfl | hd := List.mem_cons.mp hd
        · exact absurd hdigit (by decide)
        · exact .bare ⟨List.ne_nil_of_mem hd, hfraction⟩
      · by_cases hnil' : fraction = []
        · subst hnil'
          exact .point ⟨hnil, hwhole⟩
        · exact .fraction ⟨hnil, hwhole⟩ ⟨hnil', hfraction⟩
    · refine .whole ⟨List.ne_nil_of_mem hd, fun c hc => hdigits c hc ?_⟩
      rintro rfl
      exact hpoint hc
  · intro h
    refine ⟨⟨h.exists_digit, fun c hc => ?_⟩, h.count_point_le⟩
    rcases h.all_digitOrPoint c hc with hdigit | rfl
    · simp [isDigitOrPoint, hdigit]
    · rfl

theorem signText_append_unsigned (cs : List Char) :
    Double.signText (unsigned cs).1 ++ (unsigned cs).2 = cs := by
  unfold unsigned
  split <;> rfl

theorem unsigned_signText_append (negative : Bool) {digits : List Char} (h : IsNumeral digits) :
    unsigned (Double.signText negative ++ digits) = (negative, digits) := by
  cases negative with
  | true => rfl
  | false =>
    have hsign : ∀ cs, digits ≠ '-' :: cs := by
      rintro cs rfl
      rcases h.all_digitOrPoint '-' List.mem_cons_self with hdash | hdash <;>
        exact absurd hdash (by decide)
    unfold unsigned
    split
    · rename_i cs heq
      exact absurd heq (hsign cs)
    · rfl

end Text

/-- A numeral after at most one minus sign, with spaces around them. -/
structure IsNumberText (text : List Char) (negative : Bool) (digits : List Char) : Prop where
  isNumeral : IsNumeral digits
  around : ∃ before after, text = before ++ (Double.signText negative ++ digits) ++ after ∧
    (∀ c ∈ before, isSpace c = true) ∧ ∀ c ∈ after, isSpace c = true

theorem IsNumberText.trim_eq {text digits : List Char} {negative : Bool}
    (h : IsNumberText text negative digits) :
    Text.trim text = Double.signText negative ++ digits := by
  obtain ⟨before, after, rfl, hbefore, hafter⟩ := h.around
  have hvisible : ∀ c ∈ Double.signText negative ++ digits, isSpace c = false := by
    intro c hc
    rcases List.mem_append.mp hc with hc | hc
    · cases negative with
      | true =>
        obtain rfl := List.mem_singleton.mp hc
        decide
      | false => cases hc
    · rcases h.isNumeral.all_digitOrPoint c hc with hdigit | rfl
      · exact isSpace_eq_false_of_isNameChar (isNameChar_of_isDigit hdigit)
      · decide
  obtain ⟨d, hd, -⟩ := h.isNumeral.exists_digit
  apply Text.trim_around hbefore hafter (List.ne_nil_of_mem (List.mem_append_right _ hd))
  · exact fun c hc => hvisible c (List.mem_of_mem_head? hc)
  · exact endsVisibly_of_forall hvisible

theorem IsNumberText.toNumber_eq {text digits : List Char} {negative : Bool}
    (h : IsNumberText text negative digits) :
    Text.toNumber text = Double.ofDigits negative digits := by
  rw [Text.toNumber, h.trim_eq, Text.unsigned_signText_append negative h.isNumeral]
  exact if_pos ((Text.isUnsignedNumber_iff digits).mpr h.isNumeral)

theorem Double.ofRank_ne_nan (negative : Bool) (rank : Nat) : ofRank negative rank ≠ nan := by
  unfold ofRank
  split <;> exact nofun

theorem Double.ofDigits_ne_nan (negative : Bool) (digits : List Char) :
    ofDigits negative digits ≠ nan := ofRank_ne_nan negative _

/-- A text is a number just in this form, and is read as the decimal behind its sign then. -/
theorem Scalar.toNumber_string_exact (text : String) :
    ((Scalar.string text).toNumber ≠ .nan ↔
        ∃ negative digits, IsNumberText text.toList negative digits) ∧
      ∀ negative digits, IsNumberText text.toList negative digits →
        (Scalar.string text).toNumber = Double.ofDigits negative digits := by
  refine ⟨⟨?_, ?_⟩, fun negative digits h => h.toNumber_eq⟩
  · intro h
    obtain ⟨before, after, htext, hbefore, hafter⟩ := Text.exists_trim text.toList
    rw [← Text.signText_append_unsigned (Text.trim text.toList)] at htext
    refine ⟨_, _, ⟨?_, before, after, htext, hbefore, hafter⟩⟩
    by_contra hnumeral
    refine h (if_neg ?_)
    rwa [Text.isUnsignedNumber_iff]
  · rintro ⟨negative, digits, h⟩
    rw [Scalar.toNumber, h.toNumber_eq]
    exact Double.ofDigits_ne_nan negative digits

/-- Wide spaces are trimmed away, and a numeral may do without digits before its point. The
number is minus one half. -/
theorem Scalar.toNumber_string_exact_bare :
    IsNumberText "\u3000-.5\n".toList true ['.', '5'] ∧
      (Scalar.string "\u3000-.5\n").toNumber = Double.ofDigits true ['.', '5'] ∧
      Double.ofDigits true ['.', '5'] = Double.ofBits 0xBFE0000000000000 := by
  have h : IsNumberText "\u3000-.5\n".toList true ['.', '5'] :=
    ⟨.bare ⟨nofun, forall_mem_of_all (by decide)⟩, ['\u3000'], ['\n'], rfl,
      forall_mem_of_all (by decide), forall_mem_of_all (by decide)⟩
  exact ⟨h, (Scalar.toNumber_string_exact _).2 _ _ h, by decide +kernel⟩

end XPathQuery
