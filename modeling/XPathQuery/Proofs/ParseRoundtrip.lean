import XPathQuery.Proofs.WrittenDerivations

/-!
Well-formed expressions and the texts they are written as. What is parsed is well-formed,
and a well-formed expression is parsed from each text that it is written as.
-/
namespace XPathQuery

open Token Grammar

section spaces

/-- No space is a letter, a numeral or another character of names. -/
theorem isSpace_eq_false_of_isNameChar {c : Char} (h : isNameChar c = true) :
    Character.isSpace c = false := by
  have hranges : ∀ range ∈ Character.spaceRanges, ∀ k ≤ range.2 - range.1,
      Character.inRanges (range.1 + k) Character.letterRanges = false ∧
        Character.inRanges (range.1 + k) Character.numeralRanges = false := by
    decide +kernel
  rw [Bool.eq_false_iff]
  intro hspace
  obtain ⟨range, hrange, hfirst, hlast⟩ := Character.exists_range_of_inRanges hspace
  obtain ⟨hletter, hnumeral⟩ :=
    hranges range hrange (c.toNat - range.1) (Nat.sub_le_sub_right hlast _)
  rw [Nat.add_sub_cancel' hfirst] at hletter hnumeral
  simp only [isNameChar, Character.isLetter, hletter, Character.isNumeral, hnumeral,
    Bool.or_eq_true, beq_iff_eq, Bool.false_eq_true, false_or] at h
  rcases h with (rfl | rfl) | rfl <;> exact absurd hspace (by decide)

theorem isNameChar_of_isDigit {c : Char} (h : c.isDigit = true) : isNameChar c = true := by
  simp only [Char.isDigit, Bool.and_eq_true, decide_eq_true_eq] at h
  have hzero : ¬c.toNat < 0x30 := Nat.not_lt.mpr (UInt32.le_iff_toNat_le.mp h.1)
  have hnine : c.toNat ≤ 0x39 := UInt32.le_iff_toNat_le.mp h.2
  have hnumeral : Character.isNumeral c = true := by
    rw [Character.isNumeral, Character.numeralRanges, Character.inRanges, if_neg hzero,
      if_pos hnine]
  simp [isNameChar, hnumeral]

theorem isSpace_eq_false_of_opensLexeme {c : Char} (h : Lexeme.opensLexeme c = true) :
    Character.isSpace c = false := by
  have hsymbols : ∀ c ∈ "*.@/('\"".toList, Character.isSpace c = false :=
    forall_mem_of_all (by decide)
  simp only [Lexeme.opensLexeme, Bool.or_eq_true, List.contains_iff_mem] at h
  rcases h with (hstart | hdigit) | hsymbol
  · exact isSpace_eq_false_of_isNameChar (isNameChar_of_isNameStart hstart)
  · exact isSpace_eq_false_of_isNameChar (isNameChar_of_isDigit hdigit)
  · exact hsymbols c hsymbol

/-- A text that neither begins nor ends with a space is trimmed to itself. -/
theorem Text.trim_eq_self {cs : List Char} (hfirst : StopsAt Character.isSpace cs)
    (hlast : StopsAt Character.isSpace cs.reverse) : Text.trim cs = cs := by
  obtain ⟨-, hstart⟩ := span_exact Character.isSpace [] cs nofun hfirst
  obtain ⟨-, hend⟩ := span_exact Character.isSpace [] cs.reverse nofun hlast
  rw [List.nil_append] at hstart hend
  rw [Text.trim, Text.trimStart, hstart, Text.trimEnd, hend, List.reverse_reverse]

def EndsVisibly (t : List Char) : Prop := StopsAt Character.isSpace t.reverse

/-- Spaces around a text that neither begins nor ends with one are trimmed away. -/
theorem Text.trim_around {before text after : List Char}
    (hbefore : ∀ c ∈ before, Character.isSpace c = true)
    (hafter : ∀ c ∈ after, Character.isSpace c = true) (hne : text ≠ [])
    (hfirst : StopsAt Character.isSpace text) (hlast : EndsVisibly text) :
    Text.trim (before ++ text ++ after) = text := by
  obtain ⟨c, cs, rfl⟩ := List.exists_cons_of_ne_nil hne
  have hvisible : StopsAt Character.isSpace (c :: cs ++ after) :=
    (stopsAt_cons _ _ _).mpr ((stopsAt_cons _ _ _).mp hfirst)
  obtain ⟨-, hstart⟩ := span_exact Character.isSpace before _ hbefore hvisible
  have hspaces : ∀ c ∈ after.reverse, Character.isSpace c = true :=
    fun c hc => hafter c (List.mem_reverse.mp hc)
  obtain ⟨-, hend⟩ := span_exact Character.isSpace after.reverse _ hspaces hlast
  rw [Text.trim, Text.trimStart, List.append_assoc, hstart, Text.trimEnd, List.reverse_append,
    hend, List.reverse_reverse]

theorem endsVisibly_of_forall {t : List Char} (h : ∀ c ∈ t, Character.isSpace c = false) :
    EndsVisibly t :=
  fun c hc => h c (List.mem_reverse.mp (List.mem_of_mem_head? hc))

theorem EndsVisibly.append {t ts : List Char} (ht : EndsVisibly t) (hts : EndsVisibly ts) :
    EndsVisibly (t ++ ts) := by
  rw [EndsVisibly, List.reverse_append]
  intro c hc
  rcases List.eq_nil_or_concat ts with rfl | ⟨init, last, rfl⟩
  · exact ht c hc
  · exact hts c (by simpa using hc)

theorem EndsVisibly.append_of_ne_nil {t ts : List Char} (hts : EndsVisibly ts) (hne : ts ≠ []) :
    EndsVisibly (t ++ ts) := by
  rw [EndsVisibly, List.reverse_append]
  intro c hc
  rw [List.head?_append_of_ne_nil _ (by simpa using hne)] at hc
  exact hts c hc

theorem EndsVisibly.cons {c : Char} {t : List Char} (ht : EndsVisibly t)
    (hc : Character.isSpace c = false) : EndsVisibly (c :: t) := by
  have hsingle : EndsVisibly [c] := (stopsAt_cons _ _ _).mpr hc
  exact hsingle.append ht

theorem EndsVisibly.append_cons {c : Char} {t ts : List Char} (hts : EndsVisibly ts)
    (hc : Character.isSpace c = false) : EndsVisibly (t ++ c :: ts) :=
  (hts.cons hc).append_of_ne_nil (List.cons_ne_nil _ _)

theorem endsVisibly_nil : EndsVisibly [] := stopsAt_nil _

theorem IsName.endsVisibly {cs : List Char} (h : IsName cs) : EndsVisibly cs :=
  endsVisibly_of_forall fun c hc => isSpace_eq_false_of_isNameChar (h.isNameChar_of_mem c hc)

theorem IsNumeral.endsVisibly {cs : List Char} (h : IsNumeral cs) : EndsVisibly cs := by
  refine endsVisibly_of_forall fun c hc => ?_
  rcases h.all_digitOrPoint c hc with hdigit | rfl
  · exact isSpace_eq_false_of_isNameChar (isNameChar_of_isDigit hdigit)
  · decide

theorem Lexeme.Valid.endsVisibly {lexeme : Lexeme} (h : lexeme.Valid) :
    EndsVisibly lexeme.text := by
  cases lexeme with
  | symbol word =>
    have hsymbols : ∀ word ∈ Lexeme.symbols,
        word.toList.all (fun c => decide (Character.isSpace c = false)) = true := by decide
    exact endsVisibly_of_forall (forall_mem_of_all (hsymbols word h))
  | name nsPrefix localPart =>
    have hlocal : IsName localPart := h.2
    cases nsPrefix with
    | none => exact hlocal.endsVisibly
    | some p => exact hlocal.endsVisibly.append_cons (by decide)
  | prefixStar p => exact (endsVisibly_nil.cons (c := '*') (by decide)).append_cons (by decide)
  | literal quote text =>
    have hquote : Character.isSpace quote = false := by
      rcases h.1 with rfl | rfl <;> decide
    exact endsVisibly_nil.append_cons hquote
  | numeral digits =>
    have hnumeral : IsNumeral digits := h
    exact hnumeral.endsVisibly

end spaces

namespace Grammar

/-- A parenthesis closes every phrase. -/
theorem Phrase.closed_parenthesis (phrase : Phrase) : Closed phrase.closers [')'] := by
  refine closed_cons ?_ (by decide) (by decide)
  cases phrase <;> simp [Phrase.closers]

theorem Phrase.IsDerived.text_ne_nil {phrase : Phrase} {t : List Char}
    (h : phrase.IsDerived t [')']) (hphrase : ¬phrase.MayBeEmpty) : t ≠ [] := by
  rintro rfl
  have hderives := h.text hphrase
  exact hderives.head?_ne hphrase (Lexeme.opensLexeme_eq_false_of_mem _ (by decide)) (by decide) rfl

theorem Phrase.IsDerived.trim_eq_self {n : Nat} {e : Expr} {t : List Char}
    (h : (Phrase.level n e).IsDerived t [')']) (hend : EndsVisibly t) : Text.trim t = t := by
  refine Text.trim_eq_self ?_ hend
  obtain ⟨c, tail, htext, hc⟩ := (h.text id).opens id
  obtain ⟨d, tail', rfl⟩ := List.exists_cons_of_ne_nil (h.text_ne_nil id)
  obtain ⟨rfl, -⟩ := List.cons.inj htext
  rw [stopsAt_cons]
  rcases hc with hc | ⟨-, rfl⟩
  · exact isSpace_eq_false_of_opensLexeme hc
  · decide

/-- Every phrase but an empty list has a text. -/
theorem Written.text_ne_nil {short final : Bool} {phrase : Phrase} {t : List Char}
    (h : Written short final phrase t) (hphrase : ¬phrase.MayBeEmpty) : t ≠ [] :=
  (h.isDerived phrase.closed_parenthesis nofun).text_ne_nil hphrase

/-- The text of a phrase ends as the text of its last part does. Lists of arguments are
left out, since they may be empty and always stand in parentheses. -/
theorem Written.endsVisibly {short final : Bool} {phrase : Phrase} {t : List Char}
    (h : Written short final phrase t) (hphrase : phrase.brackets = 0) : EndsVisibly t := by
  induction h with
  | wildcard | selfHead | parentHead | root =>
    exact endsVisibly_of_forall (forall_mem_of_all (by decide))
  | nameTest hvalid | namespaceTest hvalid | literal hvalid => exact hvalid.endsVisibly
  | number hvalid => exact hvalid.endsVisibly
  | typeTest => exact (endsVisibly_nil.cons (by decide)).append_cons (by decide)
  | instructionTest | call | parentheses => exact endsVisibly_nil.append_cons (by decide)
  | axisHead _ _ ih => exact ((ih rfl).cons (by decide)).append_cons (by decide)
  | childHead _ _ ih | firstStep _ ih | contextSteps _ ih | looser _ _ _ ih => exact ih hphrase
  | attributeHead _ _ ih | rootSteps _ ih | negate _ ih => exact (ih rfl).cons (by decide)
  | rootDescendantSteps _ _ ih => exact ((ih rfl).cons (by decide)).cons (by decide)
  | step _ _ ihHead ih => exact (ihHead rfl).append (ih rfl)
  | noPredicates => exact endsVisibly_nil
  | predicate _ _ _ ih | nextStep _ _ _ ih | filter _ _ _ ih =>
    exact (ih rfl).append_cons (by decide)
  | nextDescendantStep _ _ _ _ ih | startSteps _ _ _ ih =>
    exact ((ih rfl).cons (by decide)).append_cons (by decide)
  | startDescendantSteps _ _ _ _ ih =>
    exact (((ih rfl).cons (by decide)).cons (by decide)).append_cons (by decide)
  | noArguments | lastArgument | argument => cases hphrase
  | binary _ hright _ ih =>
    rw [List.append_cons]
    exact (ih rfl).append_of_ne_nil (hright.text_ne_nil id)

theorem Written.trim_eq_self {short final : Bool} {n : Nat} {e : Expr} {t : List Char}
    (h : Written short final (.level n e) t) : Text.trim t = t :=
  (h.isDerived (Phrase.closed_parenthesis _) nofun).trim_eq_self (h.endsVisibly rfl)

end Grammar

/-- What is parsed is well-formed, and every well-formed expression can be written. Each text
that an expression is written as is parsed as that expression in parentheses, and without
them if a numeral that ends the text is read in full there. The only numeral that may not be
is one with digits before its point. -/
theorem Expr.parse_written (short : Bool) :
    (∀ source e, Expr.parse source = .ok e → e.WellFormed) ∧
      (∀ e : Expr, e.WellFormed → ∃ t, Written short false (.level loosest e) t) ∧
      (∀ e t, Written short true (.level loosest e) t → Expr.parse (String.ofList t) = .ok e) ∧
      (∀ e t, Written short false (.level loosest e) t → ¬EndsWithFraction t →
        Expr.parse (String.ofList t) = .ok e) ∧
      ∀ e t, Written short false (.level loosest e) t →
        Expr.parse (String.ofList ('(' :: t ++ [')'])) = .ok e := by
  have hfinal : ∀ e t, Written short true (.level loosest e) t →
      Expr.parse (String.ofList t) = .ok e := by
    intro e t h
    have hderives := (h.isDerived closed_nil fun _ => rfl).text id
    rw [List.append_nil] at hderives
    apply Expr.parse_of_derives
    rw [String.toList_ofList, h.trim_eq_self]
    exact hderives
  refine ⟨fun _ _ => Expr.wellFormed_of_parse, ?_, hfinal, ?_, ?_⟩
  · intro e he
    exact exists_written_operand (Nat.le_refl _) (exists_written he)
  · intro e t h hend
    exact hfinal e t (h.final_or_endsWithFraction.resolve_right hend)
  · intro e t h
    have hclosed : Closed " )]," [')'] := closed_cons (by decide) (by decide) (by decide)
    have hparentheses : (Phrase.level loosest e).IsDerived ('(' :: t ++ [')']) [] :=
      parentheses_isDerived (Nat.le_refl _) (h.isDerived hclosed nofun)
    have hderives := hparentheses.text id
    rw [List.append_nil] at hderives
    have htrim : Text.trim ('(' :: t ++ [')']) = '(' :: t ++ [')'] :=
      Text.trim_eq_self ((stopsAt_cons _ _ _).mpr (by decide))
        (endsVisibly_nil.append_cons (by decide))
    apply Expr.parse_of_derives
    rw [String.toList_ofList, htrim]
    exact hderives

theorem Expr.parse_written_difference :
    let path : Expr := .path .context [.step .child (.name none "a" none) []]
    let inner : Expr := .binary (.arithmetic .subtract)
      (.number (Double.ofDigits false "3".toList)) (.number (Double.ofDigits false "2".toList))
    let e : Expr := .binary (.arithmetic .subtract) path inner
    (∀ final, Written false final (.level loosest e) "child::a - (3 - 2)".toList) ∧
      ¬EndsWithFraction "child::a - (3 - 2)".toList ∧
      Expr.parse (String.ofList "child::a - (3 - 2)".toList) = .ok e ∧ e.WellFormed ∧
      ∃ t, Written false false (.level loosest e) t ∧
        Expr.parse (String.ofList ('(' :: t ++ [')'])) = .ok e := by
  intro path inner e
  have hname : (Lexeme.name none ['a']).Valid := ⟨nofun, by decide⟩
  have hthree : IsNumeral ['3'] := .whole ⟨by decide, forall_mem_of_all (by decide)⟩
  have htwo : IsNumeral ['2'] := .whole ⟨by decide, forall_mem_of_all (by decide)⟩
  have htest : Written false false (.test (.name none "a" none)) ['a'] := .nameTest hname
  have hhead : Written false false (.head .child (.name none "a" none)) "child::a".toList :=
    .axisHead (show (Axis.child, "child") ∈ axes by decide) htest
  have hpath : Written false false (.level (Operator.arithmetic .subtract).level path)
      "child::a".toList :=
    .looser (by decide) (by decide) (.contextSteps (.firstStep (.step hhead .noPredicates)))
  have hleft : Written false false (.level (Operator.arithmetic .subtract).level
      (.number (Double.ofDigits false "3".toList))) "3".toList :=
    .looser (by decide) (by decide) (.number hthree nofun)
  have hright : Written false false (.level ((Operator.arithmetic .subtract).level - 1)
      (.number (Double.ofDigits false "2".toList))) "2".toList :=
    .looser (by decide) (by decide) (.number htwo nofun)
  have hinner : Written false false (.level loosest inner) "3 - 2".toList :=
    .looser (by decide) (by decide) (hleft.binary hright)
  have hwritten : ∀ final, Written false final (.level loosest e) "child::a - (3 - 2)".toList := by
    intro final
    have hparentheses : Written false final
        (.level ((Operator.arithmetic .subtract).level - 1) inner) "(3 - 2)".toList :=
      .parentheses (by decide) hinner
    exact .looser (by decide) (by decide) (hpath.binary hparentheses)
  have hend : ¬EndsWithFraction "child::a - (3 - 2)".toList := by
    rintro ⟨whole, fraction, -, -, hsuffix⟩
    have hpoint : '.' ∈ "child::a - (3 - 2)".toList := hsuffix.subset (by simp)
    exact absurd hpoint (by decide)
  obtain ⟨hparsed, hexists, -, hunlessEnd, hinParentheses⟩ := Expr.parse_written false
  have hparse := hunlessEnd e _ (hwritten false) hend
  have hwellFormed := hparsed _ e hparse
  obtain ⟨t, ht⟩ := hexists e hwellFormed
  exact ⟨hwritten, hend, hparse, hwellFormed, t, ht, hinParentheses e t ht⟩

/-- A numeral that is the whole text is not read as it is written. -/
theorem Expr.parse_written_cut :
    let e : Expr := .number (Double.ofDigits false "5.5".toList)
    e.WellFormed ∧ Written false false (.level loosest e) "5.5".toList ∧
      Expr.parse "5.5" ≠ .ok e := by
  intro e
  have hdigits : IsDigits ['5'] := ⟨by decide, forall_mem_of_all (by decide)⟩
  have hnumeral : IsNumeral "5.5".toList := .fraction hdigits hdigits
  have hwellFormed : e.WellFormed := (Expr.wellFormed_iff e).mpr ⟨⟨_, hnumeral, rfl⟩, nofun⟩
  have hcut : Expr.parse "5.5" = .ok (.number (Double.ofDigits false ['5'])) := rfl
  refine ⟨hwellFormed, .looser (by decide) (by decide) (.number hnumeral nofun), ?_⟩
  rw [hcut]
  intro h
  have hvalue := Expr.number.inj (Except.ok.inj h)
  revert hvalue
  decide +kernel

end XPathQuery
