import XPathQuery.Proofs.ParserCompleteness
import XPathQuery.Proofs.Respacing

/-!
More blanks between the lexemes of a text do not change what is parsed, except right after
the slash or slashes that a path begins with: there the readers take a step only where no
blank stands before it.
-/
namespace XPathQuery

open Token Character

namespace Grammar

open Lexeme

section boundaries

variable {layout : Layout} {cs after after' rest : List Char}

theorem skipBlanks_of_beginsStep (h : beginsStep cs = true) : skipBlanks cs = cs := by
  cases cs with
  | nil => rfl
  | cons c cs =>
    refine skipBlanks_of_head? rfl ?_
    rw [Bool.eq_false_iff]
    intro hblank
    rcases eq_of_isBlank hblank with rfl | rfl | rfl | rfl <;> cases h

theorem beginsStep_of_name {nsPrefix : Option (List Char)} {localPart : List Char}
    (h : (Lexeme.name nsPrefix localPart).Begins cs rest) : beginsStep cs = true := by
  obtain ⟨c, tail, rfl, hc⟩ := isNameStart_of_qualifiedName (qualifiedName_of_begins h)
  simp [beginsStep, hc]

theorem Derives.test_beginsStep {test : NodeTest} (h : Derives layout (.test test) cs rest) :
    beginsStep cs = true := by
  cases h with
  | wildcard h =>
    obtain ⟨after, ⟨-, rfl, -⟩, -⟩ := h
    simp [beginsStep, Lexeme.text]
  | nameTest h | typeTest _ h | instructionTest h =>
    obtain ⟨after, hbegins, -⟩ := h
    exact beginsStep_of_name hbegins
  | namespaceTest h =>
    obtain ⟨after, hbegins, -⟩ := h
    obtain ⟨c, tail, rfl, hc⟩ :=
      isNameStart_of_qualifiedName (qualifiedName_of_prefixStar hbegins)
    simp [beginsStep, hc]

theorem Derives.head_begins {axis : Axis} {test : NodeTest}
    (h : Derives layout (.head axis test) cs rest) :
    beginsStep cs = true ∨ cs.head? = some '@' := by
  cases h with
  | axisHead _ hname =>
    obtain ⟨after, hbegins, -⟩ := hname
    exact Or.inl (beginsStep_of_name hbegins)
  | attributeHead hat =>
    obtain ⟨after, ⟨-, rfl, -⟩, -⟩ := hat
    exact Or.inr rfl
  | childHead htest => exact Or.inl htest.test_beginsStep
  | selfHead h | parentHead h =>
    obtain ⟨after, ⟨-, rfl, -⟩, -⟩ := h
    exact Or.inl (by simp [beginsStep, Lexeme.text])

theorem Derives.steps_begin {steps : List Step} (h : Derives layout (.steps steps) cs rest) :
    beginsStep cs = true ∨ cs.head? = some '@' := by
  generalize hphrase : Phrase.steps steps = phrase at h
  induction h generalizing steps with
  | firstStep hstep =>
    cases hstep with
    | step hhead _ => exact hhead.head_begins
  | nextStep _ _ _ ih | nextDescendantStep _ _ _ ih => exact ih rfl
  | _ => cases hphrase

def AfterOperand (rest : List Char) : Prop :=
  rest.head? ≠ some '@' ∧ (beginsStep rest = true → stepHead rest ≠ none)

theorem afterOperand_nil : AfterOperand [] := ⟨nofun, nofun⟩

theorem afterOperand_of_symbol {word : String} (h : (Lexeme.symbol word).Reads cs rest)
    (hword : beginsStep word.toList = false) (hat : word.toList.head? ≠ some '@') :
    AfterOperand cs := by
  obtain ⟨after, ⟨hvalid, rfl, -⟩, -⟩ := h
  obtain ⟨c, tail, htext⟩ := List.exists_cons_of_ne_nil
    (show word.toList ≠ [] from hvalid.text_ne_nil)
  rw [htext] at hword hat
  rw [Lexeme.text, htext]
  exact ⟨hat, fun hstep => absurd (hword.symm.trans hstep) Bool.false_ne_true⟩

/-- An operator that is a word is no axis, and a name test can be read there. -/
theorem stepHead_ne_none_of_word {word : String} (hword : word ∈ Operator.words)
    (h : (Lexeme.name none word.toList).Begins cs after) : stepHead cs ≠ none := by
  have haxis : axis cs = none := by
    rw [Option.eq_none_iff_forall_ne_some]
    rintro ⟨found, rest⟩ haxis
    obtain ⟨name, mid, hname, ⟨after', hbegins, -⟩, -⟩ := axis_reads haxis
    obtain ⟨hsame, -⟩ := h.unique hbegins
    have hnone : ∀ word ∈ Operator.words, ∀ entry ∈ axes, entry.2.toList ≠ word.toList := by
      decide
    exact hnone word hword _ hname (Lexeme.name.inj hsame).2.symm
  have hname := qualifiedName_of_begins h
  rw [stepHead_of_name hname, haxis]
  simp [nodeTest, nameTest, hname]

theorem afterOperand_of_operator {operator : Operator} (h : operator.lexeme.Reads cs rest) :
    AfterOperand cs := by
  have hsymbols : ∀ word ∈ Operator.symbols, word = "*" ∨
      beginsStep word.toList = false ∧ word.toList.head? ≠ some '@' := by decide +kernel
  rcases operator.lexeme_cases with ⟨word, hword, hlexeme⟩ | ⟨word, hword, hlexeme⟩
  · rw [hlexeme] at h
    rcases hsymbols word hword with rfl | ⟨hstep, hat⟩
    · obtain ⟨after, ⟨-, rfl, -⟩, -⟩ := h
      have hstar : stepHead ('*' :: after) = some ((.child, .wildcard), after) :=
        stepHead_eq nofun nofun
      exact ⟨nofun, fun _ => Option.ne_none_iff_exists'.mpr ⟨_, hstar⟩⟩
    · exact afterOperand_of_symbol h hstep hat
  · rw [hlexeme] at h
    obtain ⟨after, hbegins, -⟩ := h
    exact ⟨head?_ne_punctuation (qualifiedName_of_begins hbegins) (by decide),
      fun _ => stepHead_ne_none_of_word hword hbegins⟩

theorem standsAlone_of_stepHead (halone : stepHead after = none)
    (hrest : AfterOperand (skipBlanks after)) : standsAlone after = true := by
  have hstep : beginsStep after = false := by
    rw [Bool.eq_false_iff]
    intro hstep
    rw [skipBlanks_of_beginsStep hstep] at hrest
    exact hrest.2 hstep halone
  simp [standsAlone, hstep, hrest.1]

theorem stepHead_of_standsAlone (h : standsAlone after = true) : stepHead after = none := by
  simp only [standsAlone, Bool.and_eq_true, Bool.not_eq_true', bne_iff_ne, ne_eq] at h
  rw [Option.eq_none_iff_forall_ne_some]
  rintro ⟨⟨axis, test⟩, rest⟩ hhead
  obtain ⟨hderives, hself | ⟨tail, htail⟩⟩ := stepHead_derives hhead
  · rcases hderives.head_begins with hstep | hat
    · rw [hself] at hstep
      cases h.1.symm.trans hstep
    · exact h.2 hat
  · exact h.2 (by rw [htail]; rfl)

variable {kept : Bool → Lexeme → List Char → Prop} {ended : Bool} {lexeme : Lexeme}

theorem standsAlone_of_after (h : Respaced.After kept ended lexeme after after')
    (halone : standsAlone after = true) : standsAlone after' = true := by
  simp only [standsAlone, Bool.and_eq_true, Bool.not_eq_true', bne_iff_ne, ne_eq] at halone ⊢
  rw [h.rest.head?_eq]
  refine ⟨?_, halone.2⟩
  rw [Bool.eq_false_iff]
  intro hstep
  have hself := skipBlanks_of_beginsStep hstep
  have hhead := h.rest.head?_eq
  rw [hself, h.unspaced hself] at hhead
  rw [beginsStep, hhead] at hstep
  cases halone.1.symm.trans hstep

/-- The first step still comes right after the slash or slashes that begin a path. -/
theorem beforeStep_of_after (h : Respaced.After OpensPath false lexeme after after')
    (hslash : lexeme = .symbol "/" ∨ lexeme = .symbol "//")
    (hbefore : Layout.tight.beforeStep after)
    (hsteps : beginsStep (skipBlanks after) = true ∨ (skipBlanks after).head? = some '@') :
    Layout.tight.beforeStep after' ∧ standsAlone after = false := by
  by_cases hat : (skipBlanks after).head? = some '@'
  · refine ⟨Or.inr (List.head?_eq_some_iff.mp ?_), by simp [standsAlone, hat]⟩
    rw [h.rest.head?_eq, hat]
  · have hself : skipBlanks after = after := by
      refine hbefore.resolve_right ?_
      rintro ⟨tail, htail⟩
      exact hat (by rw [htail]; rfl)
    have hstep := hsteps.resolve_right hat
    rw [hself] at hstep
    exact ⟨Or.inl (h.tight ⟨rfl, hslash, hstep⟩ hself), by simp [standsAlone, hstep]⟩

end boundaries

def Phrase.follows : Phrase → Bool
  | predicates _ => true
  | _ => false

def Phrase.ends : Phrase → Bool
  | arguments [] => false
  | _ => true

def Phrase.IsOperand : Phrase → Prop
  | location _ | level _ _ | arguments _ => True
  | _ => False

def Phrase.StaysDerived (phrase : Phrase) (cs rest : List Char) : Prop :=
  ∀ ⦃cs'⦄, Respaced OpensPath phrase.follows cs cs' →
    ∃ rest', Derives .tight phrase cs' rest' ∧ Respaced OpensPath phrase.ends rest rest'

section phrases

variable {cs after rest : List Char}

/-- A name where an operand begins is no operator. -/
theorem endsOperand_name (nsPrefix : Option (List Char)) (localPart after : List Char) :
    (Lexeme.name nsPrefix localPart).endsOperand false after = true := by
  cases nsPrefix <;> rfl

/-- An operator is what it is only after an operand. -/
theorem endsOperand_operator (operator : Operator) (after : List Char) :
    operator.lexeme.endsOperand true after = false := by
  have hsymbols : ∀ word ∈ Operator.symbols, [")", "]", ".", ".."].contains word = false := by
    decide
  rcases operator.lexeme_cases with ⟨word, hword, hlexeme⟩ | ⟨word, -, hlexeme⟩
  · rw [hlexeme, endsOperand, hsymbols word hword]
    rfl
  · rw [hlexeme]
    rfl

namespace Phrase.StaysDerived

variable {phrase first second : Phrase} {cs₁ cs₂ : List Char}

/-- A rule that derives a phrase from one lexeme. -/
theorem of_lexeme {lexeme : Lexeme} (h : lexeme.Reads cs rest)
    (hended : ∀ after, lexeme.endsOperand phrase.follows after = phrase.ends)
    (hrule : ∀ {cs rest}, lexeme.Reads cs rest → Derives .tight phrase cs rest) :
    phrase.StaysDerived cs rest := by
  intro cs' hcs
  obtain ⟨rest', hreads, hrest⟩ := hcs.of_reads h phrase.ends hended
  exact ⟨rest', hrule hreads, hrest⟩

/-- A rule that derives one phrase from another on the same text. -/
theorem map (h : first.StaysDerived cs rest) (hfollows : phrase.follows = first.follows)
    (hends : phrase.ends = first.ends)
    (hrule : ∀ {cs rest}, Derives .tight first cs rest → Derives .tight phrase cs rest) :
    phrase.StaysDerived cs rest := by
  intro cs' hcs
  rw [hfollows] at hcs
  obtain ⟨rest', hfirst, hrest⟩ := h hcs
  rw [hends]
  exact ⟨rest', hrule hfirst, hrest⟩

/-- A rule that joins two phrases with a lexeme between them. -/
theorem join {lexeme : Lexeme} (hfirst : first.StaysDerived cs cs₁)
    (hlexeme : lexeme.Reads cs₁ cs₂) (hsecond : second.StaysDerived cs₂ rest)
    (hbetween : ∀ after, lexeme.endsOperand first.ends after = second.follows)
    (hfollows : phrase.follows = first.follows) (hends : phrase.ends = second.ends)
    (hrule : ∀ {cs cs₁ cs₂ rest}, Derives .tight first cs cs₁ → lexeme.Reads cs₁ cs₂ →
      Derives .tight second cs₂ rest → Derives .tight phrase cs rest) :
    phrase.StaysDerived cs rest := by
  intro cs' hcs
  rw [hfollows] at hcs
  obtain ⟨_, hfirst', hcs₁⟩ := hfirst hcs
  obtain ⟨_, hlexeme', hcs₂⟩ := hcs₁.of_reads hlexeme _ hbetween
  obtain ⟨rest', hsecond', hrest⟩ := hsecond hcs₂
  rw [hends]
  exact ⟨rest', hrule hfirst' hlexeme' hsecond', hrest⟩

end Phrase.StaysDerived

theorem Derives.test_staysDerived {test : NodeTest} (h : Derives .tight (.test test) cs rest) :
    (Phrase.test test).StaysDerived cs rest := by
  cases h with
  | wildcard h => exact .of_lexeme h (fun _ => rfl) .wildcard
  | nameTest h => exact .of_lexeme h (endsOperand_name _ _) .nameTest
  | namespaceTest h => exact .of_lexeme h (fun _ => rfl) .namespaceTest
  | typeTest htest hname hopen hclose =>
    intro cs' hcs
    obtain ⟨_, hname', hcs₁⟩ := hcs.of_reads hname true fun _ => rfl
    obtain ⟨_, hopen', hcs₂⟩ := hcs₁.of_reads hopen false fun _ => rfl
    obtain ⟨rest', hclose', hrest⟩ := hcs₂.of_reads hclose true fun _ => rfl
    exact ⟨rest', .typeTest htest hname' hopen' hclose', hrest⟩
  | instructionTest hname hopen htarget hclose =>
    intro cs' hcs
    obtain ⟨_, hname', hcs₁⟩ := hcs.of_reads hname true fun _ => rfl
    obtain ⟨_, hopen', hcs₂⟩ := hcs₁.of_reads hopen false fun _ => rfl
    obtain ⟨_, htarget', hcs₃⟩ := hcs₂.of_reads htarget true fun _ => rfl
    obtain ⟨rest', hclose', hrest⟩ := hcs₃.of_reads hclose true fun _ => rfl
    exact ⟨rest', .instructionTest hname' hopen' htarget' hclose', hrest⟩

theorem Derives.head_staysDerived {axis : Axis} {test : NodeTest}
    (h : Derives .tight (.head axis test) cs rest) :
    (Phrase.head axis test).StaysDerived cs rest := by
  cases h with
  | axisHead haxis hname hcolons htest =>
    intro cs' hcs
    obtain ⟨_, hname', hcs₁⟩ := hcs.of_reads hname true fun _ => rfl
    obtain ⟨_, hcolons', hcs₂⟩ := hcs₁.of_reads hcolons false fun _ => rfl
    obtain ⟨rest', htest', hrest⟩ := htest.test_staysDerived hcs₂
    exact ⟨rest', .axisHead haxis hname' hcolons' htest', hrest⟩
  | attributeHead hat htest =>
    intro cs' hcs
    obtain ⟨_, hat', hcs₁⟩ := hcs.of_reads hat false fun _ => rfl
    obtain ⟨rest', htest', hrest⟩ := htest.test_staysDerived hcs₁
    exact ⟨rest', .attributeHead hat' htest', hrest⟩
  | childHead htest => exact htest.test_staysDerived.map rfl rfl .childHead
  | selfHead h => exact .of_lexeme h (fun _ => rfl) .selfHead
  | parentHead h => exact .of_lexeme h (fun _ => rfl) .parentHead

/-- A slash that stands alone still does. -/
theorem root_staysDerived (hslash : (Lexeme.symbol "/").Begins cs after)
    (halone : Layout.tight.alone after) (hrest : AfterOperand (skipBlanks after)) :
    (Phrase.location (.path .root [])).StaysDerived cs (skipBlanks after) := by
  intro cs' (hcs : Respaced OpensPath false cs cs')
  obtain ⟨after', hslash', hafter⟩ := hcs.of_begins hslash
  have hstands := standsAlone_of_stepHead halone hrest
  have hends : (Lexeme.symbol "/").endsOperand false after = true := hstands
  have hrespaced := hafter.rest
  rw [hends] at hrespaced
  exact ⟨_, .root hslash' (stepHead_of_standsAlone (standsAlone_of_after hafter hstands)),
    hrespaced⟩

theorem rootSteps_staysDerived {steps : List Step} (hslash : (Lexeme.symbol "/").Begins cs after)
    (hbefore : Layout.tight.beforeStep after)
    (hsteps : Derives .tight (.steps steps) (skipBlanks after) rest)
    (ih : (Phrase.steps steps).StaysDerived (skipBlanks after) rest) :
    (Phrase.location (.path .root steps)).StaysDerived cs rest := by
  intro cs' (hcs : Respaced OpensPath false cs cs')
  obtain ⟨after', hslash', hafter⟩ := hcs.of_begins hslash
  obtain ⟨hbefore', hstands⟩ :=
    beforeStep_of_after hafter (Or.inl rfl) hbefore hsteps.steps_begin
  have hends : (Lexeme.symbol "/").endsOperand false after = false := hstands
  have hrespaced := hafter.rest
  rw [hends] at hrespaced
  obtain ⟨rest', hsteps', hrest⟩ := ih hrespaced
  exact ⟨rest', .rootSteps hslash' hbefore' hsteps', hrest⟩

theorem rootDescendantSteps_staysDerived {steps : List Step}
    (hslashes : (Lexeme.symbol "//").Begins cs after) (hbefore : Layout.tight.beforeStep after)
    (hsteps : Derives .tight (.steps steps) (skipBlanks after) rest)
    (ih : (Phrase.steps steps).StaysDerived (skipBlanks after) rest) :
    (Phrase.location (.path .root (Step.descendantOrSelf :: steps))).StaysDerived cs rest := by
  intro cs' hcs
  obtain ⟨after', hslashes', hafter⟩ := hcs.of_begins hslashes
  obtain ⟨hbefore', -⟩ := beforeStep_of_after hafter (Or.inr rfl) hbefore hsteps.steps_begin
  obtain ⟨rest', hsteps', hrest⟩ := ih hafter.rest
  exact ⟨rest', .rootDescendantSteps hslashes' hbefore' hsteps', hrest⟩

/-- A numeral is read in full where it was, with anything after it or with nothing. -/
theorem number_staysDerived {digits : List Char} (h : (Lexeme.numeral digits).Begins cs after)
    (hnumeral : Layout.tight.numeral digits after) :
    (Phrase.primary (.number (Double.ofDigits false digits))).StaysDerived cs
      (skipBlanks after) := by
  intro cs' hcs
  obtain ⟨after', h', hafter⟩ := hcs.of_begins h
  refine ⟨skipBlanks after', .number h' ?_, hafter.rest⟩
  by_cases hnil : after' = []
  · rw [hnil]
    have hself := hafter.unspaced (by rw [hnil]; rfl)
    have hrest := hafter.rest
    rw [hself, hnil] at hrest
    rwa [hrest.eq_nil_of_nil] at hnumeral
  · have hread := number_of_begins h' hnil
    rwa [h'.eq_append] at hread

/-- Blanks between the lexemes of a phrase do not change how it is derived. -/
theorem Derives.staysDerived {phrase : Phrase} (h : Derives .tight phrase cs rest)
    (hrest : phrase.IsOperand → AfterOperand rest) : phrase.StaysDerived cs rest := by
  have hclosing : ∀ {word : String} {cs rest : List Char}, word ∈ [")", "]", ","] →
      (Lexeme.symbol word).Reads cs rest → AfterOperand cs := by
    intro word cs rest hword hreads
    have hplain : ∀ word ∈ [")", "]", ","], beginsStep word.toList = false ∧
        word.toList.head? ≠ some '@' := by decide +kernel
    exact afterOperand_of_symbol hreads (hplain word hword).1 (hplain word hword).2
  induction h with
  | wildcard h => exact (Derives.wildcard h).test_staysDerived
  | nameTest h => exact (Derives.nameTest h).test_staysDerived
  | namespaceTest h => exact (Derives.namespaceTest h).test_staysDerived
  | typeTest htest hname hopen hclose =>
    exact (Derives.typeTest htest hname hopen hclose).test_staysDerived
  | instructionTest hname hopen htarget hclose =>
    exact (Derives.instructionTest hname hopen htarget hclose).test_staysDerived
  | axisHead haxis hname hcolons htest =>
    exact (Derives.axisHead haxis hname hcolons htest).head_staysDerived
  | attributeHead hat htest => exact (Derives.attributeHead hat htest).head_staysDerived
  | childHead htest => exact (Derives.childHead htest).head_staysDerived
  | selfHead h => exact (Derives.selfHead h).head_staysDerived
  | parentHead h => exact (Derives.parentHead h).head_staysDerived
  | step _ _ ihHead ihPredicates =>
    intro cs' hcs
    obtain ⟨_, hhead, hcs₁⟩ := ihHead nofun hcs
    obtain ⟨rest', hpredicates, hrest⟩ := ihPredicates nofun hcs₁
    exact ⟨rest', .step hhead hpredicates, hrest⟩
  | noPredicates => exact fun _ hcs => ⟨_, .noPredicates, hcs⟩
  | predicate hopen _ hclose _ ih ihMore =>
    intro cs' hcs
    obtain ⟨_, hopen', hcs₁⟩ := hcs.of_reads hopen false fun _ => rfl
    obtain ⟨_, he, hcs₂⟩ := ih (fun _ => hclosing (by decide) hclose) hcs₁
    obtain ⟨_, hclose', hcs₃⟩ := hcs₂.of_reads hclose true fun _ => rfl
    obtain ⟨rest', hes, hrest⟩ := ihMore nofun hcs₃
    exact ⟨rest', .predicate hopen' he hclose' hes, hrest⟩
  | firstStep _ ih => exact (ih nofun).map rfl rfl .firstStep
  | nextStep _ hslash _ ihSteps ih =>
    exact (ihSteps nofun).join hslash (ih nofun) (fun _ => rfl) rfl rfl .nextStep
  | nextDescendantStep _ hslashes _ ihSteps ih =>
    exact (ihSteps nofun).join hslashes (ih nofun) (fun _ => rfl) rfl rfl .nextDescendantStep
  | root hslash halone => exact root_staysDerived hslash halone (hrest trivial)
  | rootSteps hslash hbefore hsteps ih =>
    exact rootSteps_staysDerived hslash hbefore hsteps (ih nofun)
  | rootDescendantSteps hslashes hbefore hsteps ih =>
    exact rootDescendantSteps_staysDerived hslashes hbefore hsteps (ih nofun)
  | contextSteps _ ih => exact (ih nofun).map rfl rfl .contextSteps
  | literal h => exact .of_lexeme h (fun _ => rfl) .literal
  | number h hnumeral => exact number_staysDerived h hnumeral
  | parentheses hopen _ hclose ih =>
    intro cs' hcs
    obtain ⟨_, hopen', hcs₁⟩ := hcs.of_reads hopen false fun _ => rfl
    obtain ⟨_, he, hcs₂⟩ := ih (fun _ => hclosing (by decide) hclose) hcs₁
    obtain ⟨rest', hclose', hrest⟩ := hcs₂.of_reads hclose true fun _ => rfl
    exact ⟨rest', .parentheses hopen' he hclose', hrest⟩
  | call hname hfunction hopen _ hclose ih =>
    intro cs' hcs
    obtain ⟨_, hname', hcs₁⟩ := hcs.of_reads hname true (endsOperand_name _ _)
    obtain ⟨_, hopen', hcs₂⟩ := hcs₁.of_reads hopen false fun _ => rfl
    obtain ⟨_, hes, hcs₃⟩ := ih (fun _ => hclosing (by decide) hclose) hcs₂
    obtain ⟨rest', hclose', hrest⟩ := hcs₃.of_reads hclose true fun _ => rfl
    exact ⟨rest', .call hname' hfunction hopen' hes hclose', hrest⟩
  | noArguments => exact fun _ hcs => ⟨_, .noArguments, hcs⟩
  | lastArgument _ ih => exact (ih fun _ => hrest trivial).map rfl rfl .lastArgument
  | argument _ hcomma _ ih ihMore =>
    have hfirst := ih fun _ => hclosing (by decide) hcomma
    exact hfirst.join hcomma (ihMore fun _ => hrest trivial) (fun _ => rfl) rfl rfl .argument
  | unfiltered _ ih => exact (ih nofun).map rfl rfl .unfiltered
  | filtered _ _ ihBase ih =>
    intro cs' hcs
    obtain ⟨_, hbase, hcs₁⟩ := ihBase nofun hcs
    obtain ⟨rest', hes, hrest⟩ := ih nofun hcs₁
    exact ⟨rest', .filtered hbase hes, hrest⟩
  | locationPath _ ih => exact (ih fun _ => hrest trivial).map rfl rfl .locationPath
  | filterPath _ ih => exact (ih nofun).map rfl rfl .filterPath
  | filterSteps _ hslash _ ihStart ih =>
    exact (ihStart nofun).join hslash (ih nofun) (fun _ => rfl) rfl rfl .filterSteps
  | filterDescendantSteps _ hslashes _ ihStart ih =>
    exact (ihStart nofun).join hslashes (ih nofun) (fun _ => rfl) rfl rfl .filterDescendantSteps
  | looser _ hlevel ih =>
    exact (ih fun _ => hrest trivial).map rfl rfl fun h => .looser h hlevel
  | negate hminus _ ih =>
    intro cs' hcs
    obtain ⟨_, hminus', hcs₁⟩ := hcs.of_reads hminus false fun _ => rfl
    obtain ⟨rest', he, hrest⟩ := ih (fun _ => hrest trivial) hcs₁
    exact ⟨rest', .negate hminus' he, hrest⟩
  | binary _ hoperator _ ihLeft ihRight =>
    have hleft := ihLeft fun _ => afterOperand_of_operator hoperator
    exact hleft.join hoperator (ihRight fun _ => hrest trivial) (endsOperand_operator _) rfl rfl
      .binary

/-- A text whose last numeral is cut short still has it cut short. -/
theorem DerivesCut.respaced {phrase : Expr → Phrase} {e : Expr} (h : DerivesCut phrase e cs)
    {cs' : List Char} (hcs : Respaced OpensPath false cs cs') : DerivesCut phrase e cs' := by
  induction h generalizing cs' with
  | number hwhole hfraction =>
    obtain ⟨after', hbegins, hafter⟩ := hcs.of_begins (numeral_begins_cut hwhole hfraction)
    rw [hbegins.eq_append, hafter.last rfl, List.append_nil]
    exact .number hwhole hfraction
  | unfiltered _ ih => exact .unfiltered (ih hcs)
  | filterPath _ ih => exact .filterPath (ih hcs)
  | looser _ hn ih => exact .looser (ih hcs) hn
  | negate hminus _ ih =>
    obtain ⟨_, hminus', hcs₁⟩ := hcs.of_reads hminus false fun _ => rfl
    exact .negate hminus' (ih hcs₁)
  | binary hleft hoperator _ ih =>
    have hstays := hleft.staysDerived fun _ => afterOperand_of_operator hoperator
    obtain ⟨_, hleft', hcs₁⟩ := hstays hcs
    obtain ⟨_, hoperator', hcs₂⟩ := hcs₁.of_reads hoperator false (endsOperand_operator _)
    exact .binary hleft' hoperator' (ih hcs₂)

theorem TakenAs.respaced {n : Nat} {e : Expr} (h : TakenAs (.level n) e cs [])
    {cs' : List Char} (hcs : Respaced OpensPath false cs cs') : TakenAs (.level n) e cs' [] := by
  rcases h with h | ⟨-, h⟩
  · obtain ⟨rest', h', hrest⟩ := h.staysDerived (fun _ => afterOperand_nil) hcs
    rw [hrest.eq_nil] at h'
    exact Or.inl h'
  · exact Or.inr ⟨rfl, h.respaced hcs⟩

/-- What the grammar derives is a sequence of lexemes. -/
theorem Derives.inLexemes {layout : Layout} {phrase : Phrase}
    {kept : Bool → Lexeme → List Char → Prop} (h : Derives layout phrase cs rest)
    (hrest : InLexemes kept rest) : InLexemes kept cs := by
  induction h with
  | wildcard h | nameTest h | namespaceTest h | selfHead h | parentHead h | literal h =>
    exact h.inLexemes hrest
  | typeTest _ hname hopen hclose =>
    exact hname.inLexemes (hopen.inLexemes (hclose.inLexemes hrest))
  | instructionTest hname hopen htarget hclose =>
    exact hname.inLexemes (hopen.inLexemes (htarget.inLexemes (hclose.inLexemes hrest)))
  | axisHead _ hname hcolons _ ih => exact hname.inLexemes (hcolons.inLexemes (ih hrest))
  | attributeHead hsymbol _ ih | negate hsymbol _ ih => exact hsymbol.inLexemes (ih hrest)
  | childHead _ ih | firstStep _ ih | contextSteps _ ih | lastArgument _ ih | unfiltered _ ih
  | locationPath _ ih | filterPath _ ih | looser _ _ ih => exact ih hrest
  | step _ _ ihFirst ihSecond | filtered _ _ ihFirst ihSecond => exact ihFirst (ihSecond hrest)
  | noPredicates | noArguments => exact hrest
  | predicate hopen _ hclose _ ihFirst ihSecond =>
    exact hopen.inLexemes (ihFirst (hclose.inLexemes (ihSecond hrest)))
  | nextStep _ hsymbol _ ihFirst ihSecond | nextDescendantStep _ hsymbol _ ihFirst ihSecond
  | argument _ hsymbol _ ihFirst ihSecond | filterSteps _ hsymbol _ ihFirst ihSecond
  | filterDescendantSteps _ hsymbol _ ihFirst ihSecond | binary _ hsymbol _ ihFirst ihSecond =>
    exact ihFirst (hsymbol.inLexemes (ihSecond hrest))
  | root hbegins _ | number hbegins _ => exact hbegins.reads.inLexemes hrest
  | rootSteps hbegins _ _ ih | rootDescendantSteps hbegins _ _ ih =>
    exact hbegins.reads.inLexemes (ih hrest)
  | parentheses hopen _ hclose ih => exact hopen.inLexemes (ih (hclose.inLexemes hrest))
  | call hname _ hopen _ hclose ih =>
    exact hname.inLexemes (hopen.inLexemes (ih (hclose.inLexemes hrest)))

end phrases

end Grammar

namespace Expr

open Grammar Lexeme

/-- Every text that is parsed is a sequence of lexemes, so blanks can be inserted after each of
them but the last. -/
theorem inLexemes_of_parse {source : String} {e : Expr} (h : Expr.parse source = .ok e)
    (kept : Bool → Lexeme → List Char → Prop) : InLexemes kept (Text.trim source.toList) := by
  obtain ⟨e', hderives⟩ := (Expr.takenAs_of_parse h).exists_free
  exact hderives.inLexemes fun _ => .nil

/-- Blanks inserted between lexemes do not change what is parsed, as long as a step still
comes right after the slash or slashes that begin a path where it did. -/
theorem parse_respaced {source source' : String} {e : Expr} (h : Expr.parse source = .ok e)
    (hrespaced : Respaced OpensPath false (Text.trim source.toList) (Text.trim source'.toList)) :
    Expr.parse source' = .ok e :=
  (Expr.parse_eq_ok_iff source' e).mpr (((Expr.parse_eq_ok_iff source e).mp h).respaced hrespaced)

/-- Blanks between all lexemes of a text but the first two. -/
theorem parse_respaced_predicate :
    ∃ e, Expr.parse "//a[1]" = .ok e ∧
      Respaced OpensPath false (Text.trim "//a[1]".toList) (Text.trim "//a [\t1\n ]".toList) ∧
      Expr.parse "//a [\t1\n ]" = .ok e := by
  have htrim : Text.trim "//a[1]".toList = "//a[1]".toList := by decide +kernel
  have htrim' : Text.trim "//a [\t1\n ]".toList = "//a [\t1\n ]".toList := by decide +kernel
  have hslashes : (Lexeme.symbol "//").Begins "//a[1]".toList "a[1]".toList :=
    ⟨show "//" ∈ symbols by decide, rfl, (stopsAt_cons _ _ _).mpr rfl⟩
  have hname : (Lexeme.name none ['a']).Begins "a[1]".toList "[1]".toList :=
    ⟨⟨nofun, by decide +kernel⟩, rfl, stopsAt_isNameChar_cons (by decide), nofun⟩
  have hopen : (Lexeme.symbol "[").Begins "[1]".toList "1]".toList :=
    ⟨show "[" ∈ symbols by decide, rfl, (stopsAt_cons _ _ _).mpr rfl⟩
  have hone : (Lexeme.numeral ['1']).Begins "1]".toList "]".toList :=
    ⟨.whole ⟨by decide, forall_mem_of_all (by decide)⟩, rfl, (stopsAt_cons _ _ _).mpr rfl⟩
  have hclose : (Lexeme.symbol "]").Begins "]".toList [] :=
    ⟨show "]" ∈ symbols by decide, rfl, stopsAt_nil _⟩
  have hrespaced : Respaced OpensPath false "//a[1]".toList "//a [\t1\n ]".toList :=
    .insert [] hslashes nofun (fun _ => rfl) (fun _ => rfl) rfl <|
    .insert [' '] hname (forall_mem_of_all (by decide)) nofun nofun rfl <|
    .insert ['\t'] hopen (forall_mem_of_all (by decide)) nofun nofun rfl <|
    .insert ['\n', ' '] hone (forall_mem_of_all (by decide)) nofun nofun rfl <|
    .insert [] hclose nofun (fun _ => rfl) (fun _ => rfl) rfl .nil
  have hparse : Expr.parse "//a[1]" = .ok (.path .root [.descendantOrSelf,
      .step .child (.name none "a" none) [.number (Double.ofDigits false ['1'])]]) := rfl
  rw [← htrim, ← htrim'] at hrespaced
  exact ⟨_, hparse, hrespaced, parse_respaced hparse hrespaced⟩

/-- With a blank after it the slash that a path begins with is the root alone, and the step
after it is left over. -/
theorem parse_blank_after_slash :
    Expr.parse "/a" = .ok (.path .root [.step .child (.name none "a" none) []]) ∧
      Respaced (fun _ _ _ => False) false (Text.trim "/a".toList) (Text.trim "/ a".toList) ∧
      Expr.parse "/ a" = .error (.parse "/ a" (.leftover "a")) := by
  have htrim : Text.trim "/a".toList = "/a".toList := by decide +kernel
  have htrim' : Text.trim "/ a".toList = "/ a".toList := by decide +kernel
  have hslash : (Lexeme.symbol "/").Begins "/a".toList "a".toList :=
    ⟨show "/" ∈ symbols by decide, rfl, (stopsAt_cons _ _ _).mpr rfl⟩
  have hname : (Lexeme.name none ['a']).Begins "a".toList [] :=
    ⟨⟨nofun, by decide +kernel⟩, rfl, stopsAt_nil _, nofun⟩
  have hrespaced : Respaced (fun _ _ _ => False) false "/a".toList "/ a".toList :=
    .insert [' '] hslash (forall_mem_of_all (by decide)) nofun nofun rfl <|
    .insert [] hname nofun (fun _ => rfl) nofun rfl .nil
  refine ⟨?_, ?_, ?_⟩
  · rfl
  · rwa [htrim, htrim']
  · rfl

end Expr

end XPathQuery
