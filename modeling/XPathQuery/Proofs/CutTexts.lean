import XPathQuery.Proofs.ParseRoundtrip
import XPathQuery.Proofs.RespacedExpressions
import Mathlib.Data.List.DropRight

/-!
Texts whose end is cut off. Where the cut does not go through a lexeme, the lexemes before it
stay what they are, since none of them looks farther than to the end of the text. So a phrase
before the cut is still derived; only a numeral that comes to stand at the end of the text may
lose its fraction there.
-/
namespace XPathQuery

open Token Character

def upTo (tail cs : List Char) : List Char := cs.rdrop tail.length

section upTo

variable {tail cs : List Char}

theorem upTo_initial (tail cs : List Char) : upTo tail cs <+: cs := List.take_prefix _ cs

theorem upTo_append (first : List Char) (h : tail.length ≤ cs.length) :
    upTo tail (first ++ cs) = first ++ upTo tail cs :=
  List.rdrop_append_of_le_length _ h

theorem upTo_append_self (tail cs : List Char) : upTo tail (cs ++ tail) = cs :=
  List.rdrop_append_length

theorem upTo_eq_nil (h : cs.length ≤ tail.length) : upTo tail cs = [] := by
  rw [upTo, List.rdrop, Nat.sub_eq_zero_of_le h, List.take_zero]

theorem skipBlanks_upTo (tail cs : List Char) :
    skipBlanks (upTo tail cs) = upTo tail (skipBlanks cs) := by
  induction cs with
  | nil =>
    have hnil : upTo tail [] = [] := upTo_eq_nil (Nat.zero_le _)
    have hskip : skipBlanks [] = [] := rfl
    rw [hnil, hskip, hnil]
  | cons c cs ih =>
    by_cases htail : tail.length ≤ cs.length
    · have hcons : upTo tail (c :: cs) = c :: upTo tail cs := upTo_append [c] htail
      by_cases hc : isBlank c = true
      · simpa [skipBlanks, hcons, hc] using ih
      · simp [skipBlanks, hcons, hc]
    · have hlength : (c :: cs).length ≤ tail.length := Nat.lt_of_not_le htail
      have hskip := (skipBlanks_suffix (c :: cs)).length_le
      rw [upTo_eq_nil hlength, upTo_eq_nil (hskip.trans hlength)]
      rfl

end upTo

theorem head?_of_initial {cs cs' : List Char} (h : cs' <+: cs) {c : Char}
    (hc : cs'.head? = some c) : cs.head? = some c := by
  obtain ⟨more, rfl⟩ := h
  rw [List.head?_append, hc]
  rfl

/-- A text stops as well where less of it follows. -/
theorem StopsAt.of_initial {p : Char → Bool} {rest rest' : List Char} (h : StopsAt p rest)
    (hinitial : rest' <+: rest) : StopsAt p rest' :=
  fun c hc => h c (head?_of_initial hinitial hc)

namespace Lexeme

theorem BeginsLocalPart.of_initial {rest rest' : List Char} (h : BeginsLocalPart rest')
    (hinitial : rest' <+: rest) : BeginsLocalPart rest := by
  obtain ⟨more, rfl⟩ := hinitial
  obtain ⟨c, cs, rfl, hc⟩ := h
  exact ⟨c, cs ++ more, rfl, hc⟩

theorem EndsBefore.of_initial {lexeme : Lexeme} {rest rest' : List Char}
    (h : lexeme.EndsBefore rest) (hinitial : rest' <+: rest) : lexeme.EndsBefore rest' := by
  cases lexeme with
  | symbol spelling => exact StopsAt.of_initial h hinitial
  | name nsPrefix localPart =>
    cases nsPrefix with
    | some p => exact StopsAt.of_initial h hinitial
    | none => exact ⟨h.1.of_initial hinitial, fun hlocal => h.2 (hlocal.of_initial hinitial)⟩
  | numeral digits => exact StopsAt.of_initial h hinitial
  | _ => trivial

end Lexeme

theorem EndsVisibly.eq_nil_of_append {t blanks : List Char} (h : EndsVisibly (t ++ blanks))
    (hblank : ∀ c ∈ blanks, isBlank c = true) : blanks = [] := by
  rcases List.eq_nil_or_concat blanks with rfl | ⟨init, c, rfl⟩
  · rfl
  · have hvisible := h c (by simp)
    have hspace := isSpace_of_isBlank (hblank c (by simp))
    exact absurd (hvisible.symm.trans hspace) Bool.false_ne_true

/-- A stretch of a text, from `cs` up to `rest`, with a cut at `tail`: it ends before the cut, at
it, or among the blanks that come right after. -/
structure Uncut (whole tail cs rest : List Char) : Prop where
  cut : tail <:+ whole
  within : cs <:+ whole
  ends : skipBlanks tail <:+ rest

namespace Uncut

variable {whole tail cs mid after rest : List Char}

theorem left (h : Uncut whole tail cs rest) (hrest : rest <:+ mid) : Uncut whole tail cs mid :=
  ⟨h.cut, h.within, h.ends.trans hrest⟩

theorem right (h : Uncut whole tail cs rest) (hcs : mid <:+ cs) : Uncut whole tail mid rest :=
  ⟨h.cut, hcs.trans h.within, h.ends⟩

/-- A cut behind the blanks after a lexeme is behind the lexeme, which ends with no blank. -/
theorem length_le (h : Uncut whole tail cs (skipBlanks after)) {lexeme : Lexeme}
    (hbegins : lexeme.Begins cs after) : tail.length ≤ after.length := by
  by_contra hlt
  have hafter : after <:+ tail := List.suffix_of_suffix_length_le
    (hbegins.suffix.trans h.within) h.cut (Nat.le_of_not_le hlt)
  obtain ⟨blanks, rfl⟩ := hafter
  have hne : blanks ≠ [] := by
    rintro rfl
    exact hlt (Nat.le_refl _)
  have hblank : ∀ c ∈ blanks, isBlank c = true := by
    rw [← List.dropWhile_eq_nil_iff]
    by_contra hvisible
    have hlength := h.ends.length_le
    rw [skipBlanks, List.dropWhile_append, if_neg (by simpa using hvisible),
      List.length_append] at hlength
    have hskip := (skipBlanks_suffix after).length_le
    have hpos := List.length_pos_of_ne_nil hvisible
    omega
  have htext := hbegins.valid.endsVisibly
  have hbegin := h.within
  rw [hbegins.eq_append] at hbegin
  rcases List.suffix_or_suffix_of_suffix hbegin h.cut with ⟨u, hu⟩ | ⟨u, hu⟩
  · rw [← List.append_assoc] at hu
    have hinside := List.append_cancel_right hu
    refine hbegins.valid.text_ne_nil (EndsVisibly.eq_nil_of_append (t := []) htext ?_)
    intro c hc
    exact hblank c (hinside ▸ List.mem_append_right u hc)
  · rw [← List.append_assoc] at hu
    rw [← List.append_cancel_right hu] at htext
    exact hne (htext.eq_nil_of_append hblank)

end Uncut

namespace Lexeme

variable {whole tail cs after rest : List Char} {lexeme : Lexeme}

theorem Begins.upTo (h : lexeme.Begins cs after)
    (huncut : Uncut whole tail cs (skipBlanks after)) :
    lexeme.Begins (upTo tail cs) (upTo tail after) := by
  refine ⟨h.valid, ?_, h.endsBefore.of_initial (upTo_initial tail after)⟩
  rw [h.eq_append, upTo_append _ (huncut.length_le h)]

theorem Reads.upTo (h : lexeme.Reads cs rest) (huncut : Uncut whole tail cs rest) :
    lexeme.Reads (upTo tail cs) (upTo tail rest) := by
  obtain ⟨after, hbegins, rfl⟩ := h
  exact ⟨_, hbegins.upTo huncut, (skipBlanks_upTo tail after).symm⟩

end Lexeme

namespace Grammar

open Lexeme

def TakenUpTo (phrase : Expr → Phrase) (e : Expr) (cs rest : List Char) : Prop :=
  ∃ e', TakenAs phrase e' cs rest ∧ (e' = e ∨ rest = [] ∧ CutShort cs e e')

/-- What is asked of a phrase before a cut: it is derived, but the numeral at the end of a text
may lose its fraction. Arguments are asked for before a closing parenthesis only. -/
def Phrase.Remains : Phrase → List Char → List Char → Prop
  | .primary e => TakenUpTo .primary e
  | .filter e => TakenUpTo .filter e
  | .level n e => TakenUpTo (.level n) e
  | .arguments es => fun cs rest => rest ≠ [] → Derives .tight (.arguments es) cs rest
  | phrase => Derives .tight phrase

namespace TakenUpTo

variable {phrase phrase' : Expr → Phrase} {e : Expr} {cs rest : List Char}

theorem of_derives (h : Derives .tight (phrase e) cs rest) : TakenUpTo phrase e cs rest :=
  ⟨e, Or.inl h, Or.inl rfl⟩

theorem derives (h : TakenUpTo phrase e cs rest) (hrest : rest ≠ []) :
    Derives .tight (phrase e) cs rest := by
  obtain ⟨e', htaken, rfl | ⟨hnil, -⟩⟩ := h
  · exact htaken.derives hrest
  · exact absurd hnil hrest

theorem map (h : TakenUpTo phrase e cs rest)
    (hrule : ∀ {e}, Derives .tight (phrase e) cs rest → Derives .tight (phrase' e) cs rest)
    (hcut : ∀ {e}, DerivesCut phrase e cs → DerivesCut phrase' e cs) :
    TakenUpTo phrase' e cs rest := by
  obtain ⟨e', htaken, he⟩ := h
  exact ⟨e', htaken.map hrule hcut, he⟩

theorem negate {cs₁ : List Char} (hminus : (Lexeme.symbol "-").Reads cs cs₁)
    (h : TakenUpTo (.level minusLevel) e cs₁ rest) :
    TakenUpTo (.level minusLevel) (.negate e) cs rest := by
  obtain ⟨e', htaken, he⟩ := h
  exact ⟨.negate e', .negate hminus htaken,
    he.imp (congrArg Expr.negate) (And.imp_right fun hcut => .negate (hcut.mono hminus.suffix))⟩

theorem binary {operator : Operator} {left right : Expr} {cs₁ cs₂ : List Char}
    (hleft : Derives .tight (.level operator.level left) cs cs₁)
    (hoperator : operator.lexeme.Reads cs₁ cs₂)
    (hright : TakenUpTo (.level (operator.level - 1)) right cs₂ rest) :
    TakenUpTo (.level operator.level) (.binary operator left right) cs rest := by
  obtain ⟨e', htaken, he⟩ := hright
  have hsuffix := hoperator.suffix.trans hleft.suffix
  exact ⟨.binary operator left e', .binary hleft hoperator htaken,
    he.imp (congrArg _) (And.imp_right fun hcut => .binary (hcut.mono hsuffix))⟩

end TakenUpTo

section phrases

variable {whole tail cs after rest : List Char}

theorem Derives.cons_ne_nil {layout : Layout} {e : Expr} {es : List Expr}
    (h : Derives layout (.predicates (e :: es)) cs rest) : cs ≠ [] := by
  cases h with
  | predicate hopen => exact hopen.ne_nil

/-- A numeral is taken with its fraction, except at the end of a text. -/
theorem number_takenUpTo {digits : List Char} (h : (Lexeme.numeral digits).Begins cs after) :
    TakenUpTo .primary (.number (Double.ofDigits false digits)) cs (skipBlanks after) := by
  by_cases hnil : after = []
  · obtain ⟨hvalid, rfl, -⟩ := h
    rw [hnil, List.append_nil, Lexeme.text]
    rcases number_at_end hvalid with hread | ⟨whole, fraction, hwhole, hfraction, rfl⟩
    · exact ⟨_, number_takenAs hread, Or.inl rfl⟩
    · refine ⟨_, number_takenAs (number_of_cut hwhole hfraction), ?_⟩
      by_cases hempty : fraction = []
      · rw [hempty, ofDigits_point hwhole.2]
        exact Or.inl rfl
      · exact Or.inr ⟨rfl, .number hwhole ⟨hempty, hfraction⟩ List.suffix_rfl⟩
  · have hread := number_of_begins h hnil
    rw [h.eq_append] at hread
    exact .of_derives (.number h hread)

theorem standsAlone_upTo (h : standsAlone after = true) : standsAlone (upTo tail after) = true := by
  simp only [standsAlone, Bool.and_eq_true, Bool.not_eq_true', bne_iff_ne, ne_eq] at h ⊢
  rw [skipBlanks_upTo]
  constructor
  · rw [Bool.eq_false_iff]
    intro hstep
    rw [beginsStep, Option.any_eq_true] at hstep
    obtain ⟨c, hc, hbegins⟩ := hstep
    have hstep' : beginsStep after = true := by
      rw [beginsStep, head?_of_initial (upTo_initial tail after) hc, Option.any_some]
      exact hbegins
    exact Bool.false_ne_true (h.1.symm.trans hstep')
  · intro hat
    exact h.2 (head?_of_initial (upTo_initial tail _) hat)

/-- Where a slash stands alone, it still does with less behind it. -/
theorem root_upTo (hslash : (Lexeme.symbol "/").Begins cs after)
    (halone : Layout.tight.alone after) (huncut : Uncut whole tail cs (skipBlanks after))
    (hafter : upTo tail (skipBlanks after) ≠ [] → AfterOperand (skipBlanks after)) :
    Derives .tight (.location (.path .root [])) (upTo tail cs)
      (upTo tail (skipBlanks after)) := by
  have hstands : standsAlone (upTo tail after) = true := by
    by_cases hnil : upTo tail (skipBlanks after) = []
    · have hblank : skipBlanks (upTo tail after) = [] := (skipBlanks_upTo tail after).trans hnil
      have hstep : beginsStep (upTo tail after) = false := by
        rw [Bool.eq_false_iff]
        intro hstep
        rw [← skipBlanks_of_beginsStep hstep, hblank] at hstep
        cases hstep
      simp [standsAlone, hstep, hblank]
    · exact standsAlone_upTo (standsAlone_of_stepHead halone (hafter hnil))
  rw [← skipBlanks_upTo]
  exact .root (hslash.upTo huncut) (stepHead_of_standsAlone hstands)

/-- The first step still comes right after the slash or slashes that begin a path. -/
theorem beforeStep_upTo {steps : List Step} {layout : Layout}
    (hbefore : Layout.tight.beforeStep after)
    (hsteps : Derives layout (.steps steps) (upTo tail (skipBlanks after)) rest) :
    Layout.tight.beforeStep (upTo tail after) := by
  rcases hbefore with hself | ⟨more, hat⟩
  · refine Or.inl ?_
    rw [skipBlanks_upTo, hself]
  · obtain ⟨c, more', htext, -⟩ := hsteps.opens id
    have hhead := head?_of_initial (upTo_initial tail (skipBlanks after)) (by rw [htext]; rfl)
    rw [hat] at hhead
    obtain rfl := Option.some.inj hhead
    exact Or.inr ⟨more', (skipBlanks_upTo tail after).trans htext⟩

/-- A phrase before a cut remains, where no operand is followed by a step that is refused. The
induction is on the phrase; what follows its inner parts is a symbol or an operator of it. -/
theorem Derives.remains {phrase : Phrase} (h : Derives .tight phrase cs rest)
    (huncut : Uncut whole tail cs rest)
    (hafter : phrase.IsOperand → upTo tail rest ≠ [] → AfterOperand rest) :
    phrase.Remains (upTo tail cs) (upTo tail rest) := by
  have hclosing : ∀ {word : String} {cs rest : List Char}, word ∈ [")", "]", ","] →
      (Lexeme.symbol word).Reads cs rest → AfterOperand cs := by
    intro word cs rest hword hreads
    have hplain : ∀ word ∈ [")", "]", ","], beginsStep word.toList = false ∧
        word.toList.head? ≠ some '@' := by decide +kernel
    exact afterOperand_of_symbol hreads (hplain word hword).1 (hplain word hword).2
  induction h with
  | wildcard h => exact .wildcard (h.upTo huncut)
  | nameTest h => exact .nameTest (h.upTo huncut)
  | namespaceTest h => exact .namespaceTest (h.upTo huncut)
  | typeTest htest hname hopen hclose =>
    have hname' := hname.upTo (huncut.left (hclose.suffix.trans hopen.suffix))
    have hopen' := hopen.upTo ((huncut.right hname.suffix).left hclose.suffix)
    exact .typeTest htest hname' hopen'
      (hclose.upTo (huncut.right (hopen.suffix.trans hname.suffix)))
  | instructionTest hname hopen htarget hclose =>
    have huncut₁ := huncut.right hname.suffix
    have huncut₂ := huncut₁.right hopen.suffix
    have hname' := hname.upTo
      (huncut.left (hclose.suffix.trans (htarget.suffix.trans hopen.suffix)))
    have hopen' := hopen.upTo (huncut₁.left (hclose.suffix.trans htarget.suffix))
    have htarget' := htarget.upTo (huncut₂.left hclose.suffix)
    exact .instructionTest hname' hopen' htarget' (hclose.upTo (huncut₂.right htarget.suffix))
  | axisHead haxis hname hcolons htest ih =>
    have huncut₁ := huncut.right hname.suffix
    have hname' := hname.upTo (huncut.left (htest.suffix.trans hcolons.suffix))
    have hcolons' := hcolons.upTo (huncut₁.left htest.suffix)
    exact .axisHead haxis hname' hcolons' (ih (huncut₁.right hcolons.suffix) nofun)
  | attributeHead hat htest ih =>
    exact .attributeHead (hat.upTo (huncut.left htest.suffix))
      (ih (huncut.right hat.suffix) nofun)
  | childHead _ ih => exact .childHead (ih huncut nofun)
  | selfHead h => exact .selfHead (h.upTo huncut)
  | parentHead h => exact .parentHead (h.upTo huncut)
  | step hhead hpredicates ihHead ih =>
    exact .step (ihHead (huncut.left hpredicates.suffix) nofun)
      (ih (huncut.right hhead.suffix) nofun)
  | noPredicates => exact .noPredicates
  | predicate hopen he hclose hes ih ihMore =>
    have huncut₁ := huncut.right hopen.suffix
    have huncut₂ := huncut₁.right he.suffix
    have hopen' := hopen.upTo (huncut.left (hes.suffix.trans (hclose.suffix.trans he.suffix)))
    have hclose' := hclose.upTo (huncut₂.left hes.suffix)
    have he' := ih (huncut₁.left (hes.suffix.trans hclose.suffix))
      fun _ _ => hclosing (by decide) hclose
    exact .predicate hopen' (he'.derives hclose'.ne_nil) hclose'
      (ihMore (huncut₂.right hclose.suffix) nofun)
  | firstStep _ ih => exact .firstStep (ih huncut nofun)
  | nextStep hsteps hslash hstep ihSteps ih =>
    have huncut₁ := huncut.right hsteps.suffix
    exact .nextStep (ihSteps (huncut.left (hstep.suffix.trans hslash.suffix)) nofun)
      (hslash.upTo (huncut₁.left hstep.suffix)) (ih (huncut₁.right hslash.suffix) nofun)
  | nextDescendantStep hsteps hslashes hstep ihSteps ih =>
    have huncut₁ := huncut.right hsteps.suffix
    exact .nextDescendantStep (ihSteps (huncut.left (hstep.suffix.trans hslashes.suffix)) nofun)
      (hslashes.upTo (huncut₁.left hstep.suffix)) (ih (huncut₁.right hslashes.suffix) nofun)
  | root hslash halone => exact root_upTo hslash halone huncut (hafter trivial)
  | rootSteps hslash hbefore hsteps ih =>
    have hsteps' := ih (huncut.right hslash.reads.suffix) nofun
    have hbefore' := beforeStep_upTo hbefore hsteps'
    rw [← skipBlanks_upTo] at hsteps'
    exact .rootSteps (hslash.upTo (huncut.left hsteps.suffix)) hbefore' hsteps'
  | rootDescendantSteps hslashes hbefore hsteps ih =>
    have hsteps' := ih (huncut.right hslashes.reads.suffix) nofun
    have hbefore' := beforeStep_upTo hbefore hsteps'
    rw [← skipBlanks_upTo] at hsteps'
    exact .rootDescendantSteps (hslashes.upTo (huncut.left hsteps.suffix)) hbefore' hsteps'
  | contextSteps _ ih => exact .contextSteps (ih huncut nofun)
  | literal h => exact .of_derives (.literal (h.upTo huncut))
  | number h =>
    have htaken := number_takenUpTo (h.upTo huncut)
    rwa [skipBlanks_upTo] at htaken
  | parentheses hopen he hclose ih =>
    have huncut₁ := huncut.right hopen.suffix
    have hopen' := hopen.upTo (huncut.left (hclose.suffix.trans he.suffix))
    have hclose' := hclose.upTo (huncut₁.right he.suffix)
    have he' := ih (huncut₁.left hclose.suffix) fun _ _ => hclosing (by decide) hclose
    exact .of_derives (.parentheses hopen' (he'.derives hclose'.ne_nil) hclose')
  | call hname hfunction hopen hes hclose ih =>
    have huncut₁ := huncut.right hname.suffix
    have huncut₂ := huncut₁.right hopen.suffix
    have hname' := hname.upTo (huncut.left (hclose.suffix.trans (hes.suffix.trans hopen.suffix)))
    have hopen' := hopen.upTo (huncut₁.left (hclose.suffix.trans hes.suffix))
    have hclose' := hclose.upTo (huncut₂.right hes.suffix)
    have hes' := ih (huncut₂.left hclose.suffix) fun _ _ => hclosing (by decide) hclose
    exact .of_derives (.call hname' hfunction hopen' (hes' hclose'.ne_nil) hclose')
  | noArguments => exact fun _ => .noArguments
  | lastArgument _ ih =>
    exact fun hrest => .lastArgument ((ih huncut fun _ => hafter trivial).derives hrest)
  | argument he hcomma hes ih ihMore =>
    intro hrest
    have huncut₁ := huncut.right he.suffix
    have hcomma' := hcomma.upTo (huncut₁.left hes.suffix)
    have he' := ih (huncut.left (hes.suffix.trans hcomma.suffix))
      fun _ _ => hclosing (by decide) hcomma
    exact .argument (he'.derives hcomma'.ne_nil) hcomma'
      (ihMore (huncut₁.right hcomma.suffix) (fun _ => hafter trivial) hrest)
  | unfiltered _ ih => exact (ih huncut nofun).map .unfiltered .unfiltered
  | filtered hbase hes ihBase ih =>
    have hbase' := ihBase (huncut.left hes.suffix) nofun
    have hes' := ih (huncut.right hbase.suffix) nofun
    have hne := hes'.cons_ne_nil
    exact .of_derives (.filtered (hbase'.derives hne) hes')
  | locationPath _ ih =>
    exact .of_derives (.locationPath (ih huncut fun _ => hafter trivial))
  | filterPath _ ih => exact (ih huncut nofun).map .filterPath .filterPath
  | filterSteps hstart hslash hsteps ihStart ih =>
    have huncut₁ := huncut.right hstart.suffix
    have hslash' := hslash.upTo (huncut₁.left hsteps.suffix)
    have hstart' := ihStart (huncut.left (hsteps.suffix.trans hslash.suffix)) nofun
    exact .of_derives (.filterSteps (hstart'.derives hslash'.ne_nil) hslash'
      (ih (huncut₁.right hslash.suffix) nofun))
  | filterDescendantSteps hstart hslashes hsteps ihStart ih =>
    have huncut₁ := huncut.right hstart.suffix
    have hslashes' := hslashes.upTo (huncut₁.left hsteps.suffix)
    have hstart' := ihStart (huncut.left (hsteps.suffix.trans hslashes.suffix)) nofun
    exact .of_derives (.filterDescendantSteps (hstart'.derives hslashes'.ne_nil) hslashes'
      (ih (huncut₁.right hslashes.suffix) nofun))
  | looser _ hlevel ih =>
    exact (ih huncut fun _ => hafter trivial).map (.looser · hlevel) (.looser · hlevel)
  | negate hminus he ih =>
    have hminus' := hminus.upTo (huncut.left he.suffix)
    exact (ih (huncut.right hminus.suffix) fun _ => hafter trivial).negate hminus'
  | binary hleft hoperator hright ihLeft ihRight =>
    have huncut₁ := huncut.right hleft.suffix
    have hoperator' := hoperator.upTo (huncut₁.left hright.suffix)
    have hleft' := ihLeft (huncut.left (hright.suffix.trans hoperator.suffix))
      fun _ _ => afterOperand_of_operator hoperator
    exact (ihRight (huncut₁.right hoperator.suffix) fun _ => hafter trivial).binary
      (hleft'.derives hoperator'.ne_nil) hoperator'

end phrases

end Grammar

end XPathQuery
