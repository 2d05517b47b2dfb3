import XPathQuery.Expr.Equality
import XPathQuery.Proofs.CutTexts

/-!
What is left over of a text. A text that is refused since an expression does not take all of
it is cut right after an expression. What stands before the cut is parsed, and as the
expression that was read there, unless it ends with a numeral that loses its fraction with
the text behind it.
-/
namespace XPathQuery

open Token Grammar

namespace Text

/-- Blanks at the end are trimmed away and nothing else is, where a text begins and ends
visibly. -/
theorem trim_append_blanks {cs blanks : List Char} (hne : cs ≠ [])
    (hfirst : StopsAt Character.isSpace cs) (hlast : EndsVisibly cs)
    (hblank : ∀ c ∈ blanks, Character.isBlank c = true) : trim (cs ++ blanks) = cs := by
  have hspace : ∀ c ∈ blanks, Character.isSpace c = true :=
    fun c hc => Character.isSpace_of_isBlank (hblank c hc)
  have htrim : trim ([] ++ cs ++ blanks) = cs := trim_around nofun hspace hne hfirst hlast
  rwa [List.nil_append] at htrim

end Text

/-- A sequence of lexemes ends visibly, but for the blanks after the last one. -/
theorem Respaced.exists_blanks {kept : Bool → Lexeme → List Char → Prop} {ended : Bool}
    {cs cs' : List Char} (h : Respaced kept ended cs cs') :
    ∃ t blanks, cs = t ++ blanks ∧ EndsVisibly t ∧
      ∀ c ∈ blanks, Character.isBlank c = true := by
  induction h with
  | nil => exact ⟨[], [], rfl, endsVisibly_nil, List.forall_mem_nil _⟩
  | @lexeme ended lexeme blanks blanks' cs rest rest' hbegins hinserted hblank _ _ _ ih =>
    obtain ⟨t, last, rfl, ht, hlast⟩ := ih
    have htext := hbegins.valid.endsVisibly
    by_cases hnil : t = []
    · refine ⟨lexeme.text, blanks ++ last, ?_, htext, List.forall_mem_append.mpr ⟨?_, hlast⟩⟩
      · rw [hbegins.eq_append, hnil, List.nil_append]
      · intro c hc
        exact hblank c (hinserted.subset hc)
    · refine ⟨lexeme.text ++ blanks ++ t, last, ?_, ht.append_of_ne_nil hnil, hlast⟩
      rw [hbegins.eq_append, List.append_assoc, List.append_assoc]

namespace Grammar

theorem CutShort.endsWithFraction {cs : List Char} {e cut : Expr} (h : CutShort cs e cut) :
    EndsWithFraction cs := by
  induction h with
  | number hwhole hfraction hend => exact ⟨_, _, hwhole, hfraction.2, hend⟩
  | binary _ ih => exact ih
  | negate _ ih => exact ih

theorem Derives.begins_visibly {layout : Layout} {n : Nat} {e : Expr} {cs rest : List Char}
    (h : Derives layout (.level n e) cs rest) : cs ≠ [] ∧ StopsAt Character.isSpace cs := by
  obtain ⟨c, tail, rfl, hc⟩ := h.opens id
  refine ⟨List.cons_ne_nil c tail, (stopsAt_cons _ _ _).mpr ?_⟩
  rcases hc with hc | ⟨-, rfl⟩
  · exact isSpace_eq_false_of_opensLexeme hc
  · decide

/-- Before a cut that follows an expression, the expression is taken of what is left. -/
theorem Derives.takenUpTo {n : Nat} {e : Expr} {first tail : List Char}
    (h : Derives .tight (.level n e) (first ++ tail) (skipBlanks tail)) :
    TakenUpTo (.level n) e first [] := by
  have huncut : Uncut (first ++ tail) tail (first ++ tail) (skipBlanks tail) :=
    ⟨List.suffix_append first tail, List.suffix_rfl, List.suffix_rfl⟩
  have hnil : upTo tail (skipBlanks tail) = [] := upTo_eq_nil (skipBlanks_suffix tail).length_le
  have hremains := h.remains huncut fun _ hne => absurd hnil hne
  rwa [hnil, upTo_append_self] at hremains

/-- What stands before a cut after an expression is the expression with blanks behind it. -/
theorem Derives.takenUpTo_trim {n : Nat} {e : Expr} {first tail : List Char}
    (h : Derives .tight (.level n e) (first ++ tail) (skipBlanks tail)) :
    TakenUpTo (.level n) e (Text.trim first) [] := by
  obtain ⟨_, htaken, -⟩ := h.takenUpTo
  obtain ⟨_, hfree⟩ := htaken.exists_free
  have hlexemes : InLexemes (fun _ _ _ => False) first := hfree.inLexemes fun _ => .nil
  obtain ⟨t, blanks, rfl, ht, hblank⟩ := (hlexemes false).exists_blanks
  have htail : skipBlanks (blanks ++ tail) = skipBlanks tail :=
    List.dropWhile_append_of_pos hblank
  rw [List.append_assoc, ← htail] at h
  obtain ⟨_, htaken', -⟩ := h.takenUpTo
  obtain ⟨_, hfree'⟩ := htaken'.exists_free
  obtain ⟨hne, hfirst⟩ := hfree'.begins_visibly
  rw [Text.trim_append_blanks hne hfirst ht hblank]
  exact h.takenUpTo

end Grammar

namespace Expr

/-- Where a text is refused for what is left over of it, the reader has stopped right after an
expression. -/
theorem exists_read_of_leftover {source rest : String}
    (h : Expr.parse source = .error (.parse source (.leftover rest))) :
    ∃ e, Grammar.expr (Text.trim source.toList) = some (e, rest.toList) ∧ rest.toList ≠ [] := by
  unfold Expr.parse at h
  dsimp only at h
  split at h
  · cases h
  · rename_i e left hne hread
    cases h
    rw [String.toList_ofList]
    refine ⟨e, hread, ?_⟩
    rintro rfl
    exact hne rfl
  · cases h

/-- What is left over of a text begins right after an expression: what stands before it is
parsed on its own, and as the expression that was read there. Only a numeral at the end of
it may have lost its fraction. -/
theorem parse_leftover (source rest : String)
    (h : Expr.parse source = .error (.parse source (.leftover rest))) :
    ∃ accepted e e', String.ofList (Text.trim source.toList) = accepted ++ rest ∧ rest ≠ "" ∧
      Grammar.expr (Text.trim source.toList) = some (e, rest.toList) ∧
      Expr.parse accepted = .ok e' ∧ (e' = e ∨ CutShort (Text.trim accepted.toList) e e') := by
  obtain ⟨e, hread, hne⟩ := exists_read_of_leftover h
  obtain ⟨first, hfirst⟩ := expressionWithin_leavesEnd _ hread
  have hsound := expressionWithin_sound _ _ _ _ hread
  rw [Text.skipBlanks_trim] at hsound
  have hvisible : skipBlanks rest.toList ≠ [] := by
    intro hblank
    exact hne (Text.eq_nil_of_suffix_trim ⟨first, hfirst⟩ hblank)
  have hderives := hsound.derives hvisible
  rw [← hfirst] at hderives
  obtain ⟨e', htaken, he⟩ := hderives.takenUpTo_trim
  refine ⟨String.ofList first, e, e', ?_, ?_, hread, ?_, ?_⟩
  · rw [← hfirst, String.ofList_append, String.ofList_toList]
  · rintro rfl
    exact hne rfl
  · apply Expr.parse_of_takenAs
    rwa [String.toList_ofList]
  · rw [String.toList_ofList]
    exact he.imp_right And.right

/-- No numeral ends the text before the leftover name. -/
theorem parse_leftover_predicate :
    Expr.parse "-a[1] b" = .error (.parse "-a[1] b" (.leftover "b")) ∧
      ∃ e, Grammar.expr (Text.trim "-a[1] b".toList) = some (e, ['b']) ∧
        Expr.parse "-a[1] " = .ok e := by
  have hrefused : Expr.parse "-a[1] b" = .error (.parse "-a[1] b" (.leftover "b")) := by
    decide +kernel
  have htrim : Text.trim "-a[1] b".toList = "-a[1] b".toList := by decide +kernel
  have hcut : Text.trim "-a[1] ".toList = "-a[1]".toList := by decide +kernel
  obtain ⟨accepted, e, e', htext, -, hread, hparse, he⟩ := parse_leftover _ _ hrefused
  obtain rfl : accepted = "-a[1] " := by
    rw [htrim, String.ofList_toList] at htext
    apply String.toList_inj.mp
    apply (List.append_left_inj ['b']).mp
    simpa using (congrArg String.toList htext).symm
  refine ⟨hrefused, e, hread, ?_⟩
  rcases he with rfl | hshort
  · exact hparse
  · rw [hcut] at hshort
    obtain ⟨_, _, -, -, hsuffix⟩ := hshort.endsWithFraction
    have hpoint : '.' ∈ "-a[1]".toList := hsuffix.subset (by simp)
    exact absurd hpoint (by decide)

/-- The numeral that is read before the leftover text has a fraction. On its own it is read
without. -/
theorem parse_leftover_fraction :
    Expr.parse "5.5 6" = .error (.parse "5.5 6" (.leftover "6")) ∧
      Grammar.expr (Text.trim "5.5 6".toList) =
        some (.number (Double.ofDigits false "5.5".toList), ['6']) ∧
      Expr.parse "5.5 " ≠ .ok (.number (Double.ofDigits false "5.5".toList)) := by
  decide +kernel

end Expr

end XPathQuery
