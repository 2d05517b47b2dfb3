import XPathQuery.Proofs.ParserSoundness

/-!
What a reader leaves of a text is the end of that text.
-/
namespace XPathQuery

open Token

def LeavesEnd {α : Type} (reader : Reader α) : Prop :=
  ∀ {cs a rest}, reader cs = some (a, rest) → rest <:+ cs

namespace Token

variable {cs rest : List Char} {word : String}

theorem symbol_suffix (h : symbol word cs = some rest) : rest <:+ cs :=
  ⟨word.toList, ((symbol_eq_some_iff _ _ _).mp h).symm⟩

theorem spaced_suffix (h : spaced word cs = some rest) : rest <:+ cs := by
  obtain ⟨after, hsymbol, rfl⟩ := Option.map_eq_some_iff.mp h
  exact (skipBlanks_suffix after).trans ((symbol_suffix hsymbol).trans (skipBlanks_suffix cs))

theorem keyword_suffix (h : keyword word cs = some rest) : rest <:+ cs := by
  obtain ⟨rfl, -⟩ := (keyword_eq_some_iff _ _ _).mp h
  exact List.suffix_append _ _

theorem qualifiedName_leavesEnd : LeavesEnd qualifiedName := by
  rintro cs ⟨nsPrefix, localPart⟩ rest h
  obtain ⟨-, -, rfl, -⟩ := (qualifiedName_eq_some_iff _ _ _ _).mp h
  exact List.suffix_append _ _

theorem literal_leavesEnd : LeavesEnd literal := by
  intro cs text rest h
  obtain ⟨quote, hbegins⟩ := (literal_eq_some_iff _ _ _).mp h
  exact hbegins.suffix

theorem number_leavesEnd : LeavesEnd number := by
  intro cs value rest h
  obtain ⟨⟨digits, rest'⟩, hdigits, hpair⟩ := Option.map_eq_some_iff.mp h
  cases hpair
  obtain ⟨read, hbegins, -⟩ := digits_eq_some _ _ _ hdigits
  exact hbegins.suffix

theorem Chain.suffix {α : Type} {reader : Reader α} (hreader : LeavesEnd reader)
    {as : List α} (h : Chain reader cs as rest) : rest <:+ cs := by
  induction h with
  | done => exact List.suffix_rfl
  | more hfirst _ ih => exact ih.trans (hreader hfirst)

theorem many_suffix {α : Type} {reader : Reader α} (hreader : LeavesEnd reader) (cs : List Char) :
    (many reader cs).2 <:+ cs :=
  (chain_of_many rfl).suffix hreader

end Token

namespace Grammar

theorem axis_leavesEnd : LeavesEnd axis := by
  intro cs found rest h
  obtain ⟨word, mid, -, hname, hcolons⟩ := axis_reads h
  exact hcolons.suffix.trans hname.suffix

theorem emptyParentheses_suffix {cs rest : List Char} (h : emptyParentheses cs = some rest) :
    rest <:+ cs := by
  obtain ⟨mid, hopen, hclose⟩ := Option.bind_eq_some_iff.mp h
  exact (symbol_suffix hclose).trans (spaced_suffix hopen)

theorem instructionTarget_leavesEnd : LeavesEnd instructionTarget := by
  intro cs target rest h
  unfold instructionTarget at h
  split at h
  · cases h
  · rename_i inside hopen
    split at h
    · rename_i text after hliteral
      obtain ⟨rest', hclose, hpair⟩ := Option.map_eq_some_iff.mp h
      cases hpair
      exact (symbol_suffix hclose).trans ((skipBlanks_suffix after).trans
        ((literal_leavesEnd hliteral).trans (spaced_suffix hopen)))
    · obtain ⟨rest', hclose, hpair⟩ := Option.map_eq_some_iff.mp h
      cases hpair
      exact (symbol_suffix hclose).trans (spaced_suffix hopen)

theorem nodeTypeTest_leavesEnd : LeavesEnd nodeTypeTest := by
  intro cs test rest h
  rcases orElse_eq_some_iff.mp h with hfirst | ⟨-, hinstruction⟩
  · obtain ⟨spelling, hmem, hspelling⟩ := exists_of_firstOf hfirst
    obtain ⟨word, rfl⟩ : ∃ word, spelling = fun cs => (keyword word cs).bind emptyParentheses := by
      simp only [List.mem_cons, Prod.mk.injEq, List.not_mem_nil, or_false] at hmem
      rcases hmem with ⟨-, rfl⟩ | ⟨-, rfl⟩ | ⟨-, rfl⟩ <;> exact ⟨_, rfl⟩
    obtain ⟨after, hkeyword, hparentheses⟩ := Option.bind_eq_some_iff.mp hspelling
    exact (emptyParentheses_suffix hparentheses).trans (keyword_suffix hkeyword)
  · obtain ⟨⟨target, rest'⟩, hread, hpair⟩ := Option.map_eq_some_iff.mp hinstruction
    cases hpair
    obtain ⟨after, hkeyword, htarget⟩ := Option.bind_eq_some_iff.mp hread
    exact (instructionTarget_leavesEnd htarget).trans (keyword_suffix hkeyword)

theorem nodeTest_leavesEnd : LeavesEnd nodeTest := by
  intro cs test rest h
  rcases orElse_eq_some_iff.mp h with hstar | ⟨-, h⟩
  · obtain ⟨after, hsymbol, hpair⟩ := Option.map_eq_some_iff.mp hstar
    cases hpair
    exact symbol_suffix hsymbol
  rcases orElse_eq_some_iff.mp h with htype | ⟨-, h⟩
  · exact nodeTypeTest_leavesEnd htype
  rcases orElse_eq_some_iff.mp h with hnamespace | ⟨-, h⟩
  · obtain ⟨nsPrefix, hbegins, -⟩ := namespaceWildcard_eq_some_iff.mp hnamespace
    exact hbegins.suffix
  · obtain ⟨⟨qname, after⟩, hname, hpair⟩ := Option.map_eq_some_iff.mp h
    cases hpair
    exact qualifiedName_leavesEnd hname

theorem stepHead_leavesEnd : LeavesEnd stepHead := by
  intro cs found rest h
  rcases orElse_eq_some_iff.mp h with hparent | ⟨-, h⟩
  · obtain ⟨after, hsymbol, hpair⟩ := Option.map_eq_some_iff.mp hparent
    cases hpair
    exact symbol_suffix hsymbol
  rcases orElse_eq_some_iff.mp h with hself | ⟨-, h⟩
  · obtain ⟨after, habbreviation, hpair⟩ := Option.map_eq_some_iff.mp hself
    cases hpair
    obtain ⟨rfl, -⟩ := (selfAbbreviation_eq_some_iff _ _).mp habbreviation
    exact List.suffix_cons _ _
  rcases orElse_eq_some_iff.mp h with hattribute | ⟨-, h⟩
  · obtain ⟨⟨test, after⟩, hread, hpair⟩ := Option.map_eq_some_iff.mp hattribute
    cases hpair
    obtain ⟨mid, hat, htest⟩ := Option.bind_eq_some_iff.mp hread
    exact (nodeTest_leavesEnd htest).trans (spaced_suffix hat)
  · split at h
    · rename_i a mid haxis
      obtain ⟨⟨test, after⟩, htest, hpair⟩ := Option.map_eq_some_iff.mp h
      cases hpair
      exact (nodeTest_leavesEnd htest).trans (axis_leavesEnd haxis)
    · obtain ⟨⟨test, after⟩, htest, hpair⟩ := Option.map_eq_some_iff.mp h
      cases hpair
      exact nodeTest_leavesEnd htest

section

variable {nested : Reader Expr} (hnested : LeavesEnd nested)

include hnested

theorem bracketed_leavesEnd (left right : String) : LeavesEnd (bracketed left right nested) := by
  intro cs e rest h
  unfold bracketed at h
  split at h
  · cases h
  · rename_i inside hopen
    split at h
    · rename_i e' after hread
      obtain ⟨rest', hclose, hpair⟩ := Option.map_eq_some_iff.mp h
      cases hpair
      exact (spaced_suffix hclose).trans ((hnested hread).trans (spaced_suffix hopen))
    · cases h

theorem step_leavesEnd : LeavesEnd (step nested) := by
  intro cs s rest h
  obtain ⟨⟨⟨axis, test⟩, after⟩, hhead, hpair⟩ := Option.map_eq_some_iff.mp h
  cases hpair
  exact (many_suffix (bracketed_leavesEnd hnested "[" "]") after).trans (stepHead_leavesEnd hhead)

theorem furtherStep_leavesEnd : LeavesEnd (furtherStep nested) := by
  intro cs steps rest h
  unfold furtherStep at h
  split at h
  · rename_i mid hslashes
    obtain ⟨⟨s, after⟩, hstep, hpair⟩ := Option.map_eq_some_iff.mp h
    cases hpair
    exact (step_leavesEnd hnested hstep).trans (spaced_suffix hslashes)
  · split at h
    · rename_i mid hslash
      obtain ⟨⟨s, after⟩, hstep, hpair⟩ := Option.map_eq_some_iff.mp h
      cases hpair
      exact (step_leavesEnd hnested hstep).trans (spaced_suffix hslash)
    · cases h

theorem relativeSteps_leavesEnd : LeavesEnd (relativeSteps nested) := by
  intro cs steps rest h
  obtain ⟨⟨first, mid⟩, hfirst, hpair⟩ := Option.map_eq_some_iff.mp h
  cases hpair
  exact (many_suffix (furtherStep_leavesEnd hnested) mid).trans (step_leavesEnd hnested hfirst)

theorem locationPath_leavesEnd : LeavesEnd (locationPath nested) := by
  intro cs e rest h
  unfold locationPath at h
  split at h
  · rename_i after hslashes
    obtain ⟨⟨steps, rest'⟩, hsteps, hpair⟩ := Option.map_eq_some_iff.mp h
    cases hpair
    exact (relativeSteps_leavesEnd hnested hsteps).trans (symbol_suffix hslashes)
  · split at h
    · rename_i after hslash
      split at h
      · rename_i steps rest' hsteps
        cases h
        exact (relativeSteps_leavesEnd hnested hsteps).trans (symbol_suffix hslash)
      · cases h
        exact symbol_suffix hslash
    · obtain ⟨⟨steps, rest'⟩, hsteps, hpair⟩ := Option.map_eq_some_iff.mp h
      cases hpair
      exact relativeSteps_leavesEnd hnested hsteps

theorem furtherArgument_leavesEnd : LeavesEnd (furtherArgument nested) := by
  intro cs e rest h
  obtain ⟨mid, hcomma, hread⟩ := Option.bind_eq_some_iff.mp h
  exact (hnested hread).trans (spaced_suffix hcomma)

theorem arguments_suffix (cs : List Char) : (arguments nested cs).2 <:+ cs := by
  rw [arguments_eq]
  split
  · exact List.suffix_rfl
  · rename_i first mid hfirst
    exact (many_suffix (furtherArgument_leavesEnd hnested) mid).trans (hnested hfirst)

theorem call_leavesEnd : LeavesEnd (call nested) := by
  intro cs e rest h
  unfold call at h
  split at h
  · cases h
  · rename_i qname after hname
    dsimp only at h
    split at h
    · cases h
    · rename_i inside hopen
      split at h
      · cases h
      · obtain ⟨rest', hclose, hpair⟩ := Option.map_eq_some_iff.mp h
        cases hpair
        exact (spaced_suffix hclose).trans ((arguments_suffix hnested inside).trans
          ((symbol_suffix hopen).trans ((skipBlanks_suffix after).trans
            (qualifiedName_leavesEnd hname))))

theorem primary_leavesEnd : LeavesEnd (primary nested) := by
  intro cs e rest h
  obtain ⟨⟨e', rest'⟩, hread, hpair⟩ := Option.map_eq_some_iff.mp h
  cases hpair
  have hunspaced : rest' <:+ skipBlanks cs := by
    rcases orElse_eq_some_iff.mp hread with hnumber | ⟨-, h⟩
    · obtain ⟨⟨value, after⟩, hnumber, hpair⟩ := Option.map_eq_some_iff.mp hnumber
      cases hpair
      exact number_leavesEnd hnumber
    rcases orElse_eq_some_iff.mp h with hliteral | ⟨-, h⟩
    · obtain ⟨⟨text, after⟩, hliteral, hpair⟩ := Option.map_eq_some_iff.mp hliteral
      cases hpair
      exact literal_leavesEnd hliteral
    rcases orElse_eq_some_iff.mp h with hcall | ⟨-, hparenthesized⟩
    · exact call_leavesEnd hnested hcall
    · exact bracketed_leavesEnd hnested "(" ")" hparenthesized
  exact (skipBlanks_suffix rest').trans (hunspaced.trans (skipBlanks_suffix cs))

theorem filtered_leavesEnd : LeavesEnd (filtered nested) := by
  intro cs e rest h
  obtain ⟨⟨base, mid⟩, hbase, hpair⟩ := Option.map_eq_some_iff.mp h
  have hmany := many_suffix (bracketed_leavesEnd hnested "[" "]") mid
  rw [← predicate_eq] at hmany
  have hrest : rest = (many (predicate nested) mid).2 := by
    dsimp only at hpair
    split at hpair
    · rename_i rest' hfound
      cases hpair
      rw [hfound]
    · rename_i es rest' hfound
      cases hpair
      rw [hfound]
  rw [hrest]
  exact hmany.trans (primary_leavesEnd hnested hbase)

theorem furtherSteps_suffix (cs : List Char) : (furtherSteps nested cs).2 <:+ cs :=
  many_suffix (furtherStep_leavesEnd hnested) cs

theorem path_leavesEnd : LeavesEnd (path nested) := by
  intro cs e rest h
  unfold path at h
  split at h
  · rename_i start mid hstart
    have hsteps := furtherSteps_suffix hnested mid
    have hrest : rest = (furtherSteps nested mid).2 := by
      split at h
      · rename_i rest' hfound
        cases h
        rw [hfound]
      · rename_i steps rest' hfound
        cases h
        rw [hfound]
    rw [hrest]
    exact hsteps.trans (filtered_leavesEnd hnested hstart)
  · obtain ⟨⟨e', rest'⟩, hlocation, hpair⟩ := Option.map_eq_some_iff.mp h
    cases hpair
    exact (skipBlanks_suffix rest').trans ((locationPath_leavesEnd hnested hlocation).trans
      (skipBlanks_suffix cs))

end

theorem operatorAt_leavesEnd (n : Nat) : LeavesEnd (operatorAt n) := by
  intro cs operator rest h
  obtain ⟨-, rfl, -⟩ := operatorAt_begins h
  exact List.suffix_append _ _

theorem level_leavesEnd (n : Nat) {operand : Reader Expr} (hoperand : LeavesEnd operand) :
    LeavesEnd (level (operatorAt n) operand) := by
  have hoperation : LeavesEnd (operation n operand) := by
    intro cs found rest h
    obtain ⟨⟨operator, after⟩, hoperator, hright⟩ := Option.bind_eq_some_iff.mp h
    obtain ⟨⟨right, rest'⟩, hright, hpair⟩ := Option.map_eq_some_iff.mp hright
    cases hpair
    exact (hoperand hright).trans ((skipBlanks_suffix after).trans
      ((operatorAt_leavesEnd n hoperator).trans (skipBlanks_suffix cs)))
  intro cs e rest h
  rw [level_eq] at h
  obtain ⟨⟨first, mid⟩, hfirst, hpair⟩ := Option.map_eq_some_iff.mp h
  cases hpair
  exact (many_suffix hoperation mid).trans (hoperand hfirst)

theorem negated_leavesEnd {operand : Reader Expr} (hoperand : LeavesEnd operand) :
    LeavesEnd (negated operand) := by
  have hsign : LeavesEnd sign := by
    intro cs u rest h
    obtain ⟨after, hminus, hpair⟩ := Option.map_eq_some_iff.mp h
    cases hpair
    exact spaced_suffix hminus
  intro cs e rest h
  rw [negated_eq] at h
  obtain ⟨⟨e', rest'⟩, hread, hpair⟩ := Option.map_eq_some_iff.mp h
  cases hpair
  exact (hoperand hread).trans (many_suffix hsign cs)

theorem readerAt_leavesEnd {nested : Reader Expr} (hnested : LeavesEnd nested) (n : Nat) :
    LeavesEnd (readerAt nested n) := by
  induction n with
  | zero => exact path_leavesEnd hnested
  | succ n ih =>
    by_cases h : n = 1
    · subst h
      exact negated_leavesEnd ih
    · rw [readerAt_succ h]
      exact level_leavesEnd (n + 1) ih

theorem expressionWithin_leavesEnd (bound : List Char) : LeavesEnd (expressionWithin bound) := by
  induction bound with
  | nil => exact nofun
  | cons _ bound ih => exact readerAt_leavesEnd ih loosest

end Grammar

end XPathQuery
