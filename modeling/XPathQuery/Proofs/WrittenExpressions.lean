import XPathQuery.Proofs.ParsedExpressions

/-!
Expressions written as text, with parentheses only around operands that need them. A text
that an expression is written as is parsed as that expression.
-/
namespace XPathQuery

open Token Grammar

def Expr.level : Expr → Nat
  | .binary operator _ _ => operator.level
  | .negate _ => minusLevel
  | _ => 0

theorem Expr.level_le (e : Expr) : e.level ≤ loosest := by
  cases e with
  | binary operator left right => exact operator.level_le
  | negate e => exact (by decide : minusLevel ≤ loosest)
  | _ => exact Nat.zero_le _

namespace Grammar

/-- How phrases are written: steps in full or also, if `short`, abbreviated; one space on
each side of an operator; the start of a path and what is filtered in parentheses, and an
operand where it is looser than its place allows. Where `final` holds, nothing follows the
text, and the numeral at its end has to be read as it is there. -/
inductive Written (short : Bool) : Bool → Phrase → List Char → Prop
  | wildcard {final} : Written short final (.test .wildcard) ['*']
  | nameTest {final nsPrefix localPart} (hvalid : (Lexeme.name nsPrefix localPart).Valid) :
      Written short final
        (.test (.name (nsPrefix.map String.ofList) (String.ofList localPart) none))
        (Lexeme.name nsPrefix localPart).text
  | namespaceTest {final nsPrefix} (hvalid : (Lexeme.prefixStar nsPrefix).Valid) :
      Written short final (.test (.namespaceWildcard (String.ofList nsPrefix) none))
        (Lexeme.prefixStar nsPrefix).text
  | typeTest {final word test} (htest : (word, test) ∈ nodeTypeTests) :
      Written short final (.test test) (word.toList ++ ['(', ')'])
  | instructionTest {final quote target} (hvalid : (Lexeme.literal quote target).Valid) :
      Written short final (.test (.instruction (some (String.ofList target))))
        ("processing-instruction".toList ++ '(' :: (Lexeme.literal quote target).text ++ [')'])
  | axisHead {final axis word test t} (haxis : (axis, word) ∈ axes)
      (htest : Written short final (.test test) t) :
      Written short final (.head axis test) (word.toList ++ ':' :: ':' :: t)
  | childHead {final test t} (hshort : short = true) (htest : Written short final (.test test) t) :
      Written short final (.head .child test) t
  | attributeHead {final test t} (hshort : short = true)
      (htest : Written short final (.test test) t) :
      Written short final (.head .attribute test) ('@' :: t)
  | selfHead {final} (hshort : short = true) : Written short final (.head .self .node) ['.']
  | parentHead {final} (hshort : short = true) :
      Written short final (.head .parent .node) ['.', '.']
  | step {final axis test es t ts} (hhead : Written short final (.head axis test) t)
      (hes : Written short final (.predicates es) ts) :
      Written short final (.step (.step axis test es)) (t ++ ts)
  | noPredicates {final} : Written short final (.predicates []) []
  | predicate {final e es t ts} (he : Written short false (.level loosest e) t)
      (hes : Written short final (.predicates es) ts) :
      Written short final (.predicates (e :: es)) ('[' :: t ++ ']' :: ts)
  | firstStep {final s t} (h : Written short final (.step s) t) :
      Written short final (.steps [s]) t
  | nextStep {final steps s ts t} (hsteps : Written short final (.steps steps) ts)
      (hstep : Written short final (.step s) t) :
      Written short final (.steps (steps ++ [s])) (ts ++ '/' :: t)
  | nextDescendantStep {final steps s ts t} (hshort : short = true)
      (hsteps : Written short final (.steps steps) ts) (hstep : Written short final (.step s) t) :
      Written short final (.steps (steps ++ [Step.descendantOrSelf, s])) (ts ++ '/' :: '/' :: t)
  | root {final} : Written short final (.level 0 (.path .root [])) ['/']
  | rootSteps {final steps t} (hsteps : Written short final (.steps steps) t) :
      Written short final (.level 0 (.path .root steps)) ('/' :: t)
  | rootDescendantSteps {final steps t} (hshort : short = true)
      (hsteps : Written short final (.steps steps) t) :
      Written short final (.level 0 (.path .root (Step.descendantOrSelf :: steps)))
        ('/' :: '/' :: t)
  | contextSteps {final steps t} (hsteps : Written short final (.steps steps) t) :
      Written short final (.level 0 (.path .context steps)) t
  | startSteps {final start steps t ts} (hstart : Written short false (.level loosest start) t)
      (hsteps : Written short final (.steps steps) ts) :
      Written short final (.level 0 (.path (.expr start) steps)) ('(' :: t ++ ')' :: '/' :: ts)
  | startDescendantSteps {final start steps t ts} (hshort : short = true)
      (hstart : Written short false (.level loosest start) t)
      (hsteps : Written short final (.steps steps) ts) :
      Written short final (.level 0 (.path (.expr start) (Step.descendantOrSelf :: steps)))
        ('(' :: t ++ ')' :: '/' :: '/' :: ts)
  | literal {final quote text} (hvalid : (Lexeme.literal quote text).Valid) :
      Written short final (.level 0 (.literal (String.ofList text)))
        (Lexeme.literal quote text).text
  | number {final digits} (hvalid : IsNumeral digits)
      (hfinal : final = true → Token.number digits = some (Double.ofDigits false digits, [])) :
      Written short final (.level 0 (.number (Double.ofDigits false digits))) digits
  | call {final nsPrefix localPart es t} (hvalid : (Lexeme.name nsPrefix localPart).Valid)
      (hfunction : qualifiedText (nsPrefix, localPart) ∉ nodeTypeNames)
      (hes : Written short false (.arguments es) t) :
      Written short final (.level 0 (.call (qualifiedText (nsPrefix, localPart)) es))
        ((Lexeme.name nsPrefix localPart).text ++ '(' :: t ++ [')'])
  | noArguments : Written short false (.arguments []) []
  | lastArgument {e t} (he : Written short false (.level loosest e) t) :
      Written short false (.arguments [e]) t
  | argument {e next es t ts} (he : Written short false (.level loosest e) t)
      (hes : Written short false (.arguments (next :: es)) ts) :
      Written short false (.arguments (e :: next :: es)) (t ++ ',' :: ' ' :: ts)
  | filter {final base e es t ts} (hbase : Written short false (.level loosest base) t)
      (hes : Written short final (.predicates (e :: es)) ts) :
      Written short final (.level 0 (.filter base (e :: es))) ('(' :: t ++ ')' :: ts)
  | negate {final e t} (he : Written short final (.level minusLevel e) t) :
      Written short final (.level minusLevel (.negate e)) ('-' :: t)
  | binary {final operator left right t ts}
      (hleft : Written short false (.level operator.level left) t)
      (hright : Written short final (.level (operator.level - 1) right) ts) :
      Written short final (.level operator.level (.binary operator left right))
        (t ++ ' ' :: operator.lexeme.text ++ ' ' :: ts)
  | looser {final n e t} (hlevel : e.level < n) (hn : n ≤ loosest)
      (h : Written short final (.level e.level e) t) : Written short final (.level n e) t
  | parentheses {final n e t} (hlevel : n < e.level)
      (he : Written short false (.level loosest e) t) :
      Written short final (.level n e) ('(' :: t ++ [')'])

section existence

variable {short final : Bool}

theorem exists_written_test {test : NodeTest} (h : test.WellFormed) :
    ∃ t, Written short final (.test test) t := by
  cases test with
  | wildcard => exact ⟨_, .wildcard⟩
  | name nsPrefix localPart uri =>
    obtain ⟨hnames, hlocal, rfl⟩ := h
    have hvalid : (Lexeme.name (nsPrefix.map String.toList) localPart.toList).Valid := by
      refine ⟨fun p hp => ?_, hlocal⟩
      obtain ⟨name, hname, rfl⟩ := Option.map_eq_some_iff.mp hp
      exact hnames name hname
    have hwritten : Written short final _ _ := .nameTest hvalid
    rw [Option.map_map, String.ofList_toList] at hwritten
    exact ⟨_, by simpa [Function.comp_def] using hwritten⟩
  | namespaceWildcard nsPrefix uri =>
    obtain ⟨hnames, rfl⟩ := h
    have hwritten : Written short final _ _ := .namespaceTest hnames
    rw [String.ofList_toList] at hwritten
    exact ⟨_, hwritten⟩
  | text => exact ⟨_, .typeTest (show ("text", .text) ∈ nodeTypeTests by decide)⟩
  | node => exact ⟨_, .typeTest (show ("node", .node) ∈ nodeTypeTests by decide)⟩
  | comment => exact ⟨_, .typeTest (show ("comment", .comment) ∈ nodeTypeTests by decide)⟩
  | instruction target =>
    cases target with
    | none =>
      exact ⟨_, .typeTest
        (show ("processing-instruction", .instruction none) ∈ nodeTypeTests by decide)⟩
    | some target =>
      obtain ⟨quote, hvalid⟩ := h
      have hwritten : Written short final _ _ := .instructionTest hvalid
      rw [String.ofList_toList] at hwritten
      exact ⟨_, hwritten⟩

theorem exists_axis_word (axis : Axis) : ∃ word, (axis, word) ∈ axes := by
  have hmem : axis ∈ axes.map Prod.fst := by cases axis <;> decide
  obtain ⟨⟨_, word⟩, hword, rfl⟩ := List.mem_map.mp hmem
  exact ⟨word, hword⟩

theorem exists_written_predicates {es : List Expr}
    (h : ∀ e ∈ es, ∃ t, Written short false (.level loosest e) t) :
    ∃ t, Written short final (.predicates es) t := by
  induction es with
  | nil => exact ⟨_, .noPredicates⟩
  | cons e es ih =>
    obtain ⟨⟨t, he⟩, hes⟩ := List.forall_mem_cons.mp h
    obtain ⟨ts, hts⟩ := ih hes
    exact ⟨_, .predicate he hts⟩

theorem exists_written_step {s : Step} (htest : s.test.WellFormed)
    (h : ∀ e ∈ s.predicates, ∃ t, Written short false (.level loosest e) t) :
    ∃ t, Written short final (.step s) t := by
  obtain ⟨axis, test, es⟩ := s
  obtain ⟨word, hword⟩ := exists_axis_word axis
  obtain ⟨t, ht⟩ := exists_written_test htest
  obtain ⟨ts, hts⟩ := exists_written_predicates h
  exact ⟨_, .step (.axisHead hword ht) hts⟩

theorem exists_written_arguments {es : List Expr}
    (h : ∀ e ∈ es, ∃ t, Written short false (.level loosest e) t) :
    ∃ t, Written short false (.arguments es) t := by
  induction es with
  | nil => exact ⟨_, .noArguments⟩
  | cons e es ih =>
    obtain ⟨⟨t, he⟩, hes⟩ := List.forall_mem_cons.mp h
    cases es with
    | nil => exact ⟨_, .lastArgument he⟩
    | cons next es =>
      obtain ⟨ts, hts⟩ := ih hes
      exact ⟨_, .argument he hts⟩

theorem exists_written_steps {steps : List Step} (hne : steps ≠ [])
    (h : ∀ s ∈ steps, ∃ t, Written short final (.step s) t) :
    ∃ t, Written short final (.steps steps) t := by
  induction steps using List.reverseRecOn with
  | nil => exact absurd rfl hne
  | append_singleton steps s ih =>
    obtain ⟨hsteps, hs⟩ := List.forall_mem_append.mp h
    obtain ⟨t, hs⟩ := hs s (List.mem_singleton.mpr rfl)
    by_cases hempty : steps = []
    · subst hempty
      exact ⟨_, .firstStep hs⟩
    · obtain ⟨ts, hts⟩ := ih hempty hsteps
      exact ⟨_, .nextStep hts hs⟩

theorem exists_written_path {start : PathStart} {steps : List Step}
    (hproper : (Expr.path start steps).Proper)
    (h : ∀ part ∈ (Expr.path start steps).parts, ∃ t, Written short false (.level loosest part) t) :
    ∃ t, Written short false (.level 0 (.path start steps)) t := by
  obtain ⟨hstart, htests⟩ := hproper
  have hsteps : ∀ s ∈ steps, ∃ t, Written short false (.step s) t := by
    intro s hs
    have hinStep : ∀ e ∈ s.predicates, e ∈ (Expr.path start steps).parts := fun e he =>
      List.mem_append_right _ (List.mem_flatMap.mpr ⟨s, hs, he⟩)
    exact exists_written_step (htests s hs) fun e he => h e (hinStep e he)
  cases start with
  | root =>
    by_cases hempty : steps = []
    · subst hempty
      exact ⟨_, .root⟩
    · obtain ⟨ts, hts⟩ := exists_written_steps hempty hsteps
      exact ⟨_, .rootSteps hts⟩
  | context =>
    obtain ⟨ts, hts⟩ := exists_written_steps (hstart.resolve_left nofun) hsteps
    exact ⟨_, .contextSteps hts⟩
  | expr start =>
    obtain ⟨t, ht⟩ := h start (List.mem_cons_self ..)
    obtain ⟨ts, hts⟩ := exists_written_steps (hstart.resolve_left nofun) hsteps
    exact ⟨_, .startSteps ht hts⟩

/-- An operand of a place is written without parentheses, or in them if it is too loose. -/
theorem exists_written_operand {n : Nat} {e : Expr} (hn : n ≤ loosest)
    (h : ∃ t, Written short false (.level e.level e) t) :
    ∃ t, Written short false (.level n e) t := by
  have hat : ∀ m ≤ loosest, e.level ≤ m → ∃ t, Written short false (.level m e) t := by
    intro m hm hle
    obtain ⟨t, ht⟩ := h
    rcases Nat.lt_or_eq_of_le hle with hlt | rfl
    · exact ⟨t, .looser hlt hm ht⟩
    · exact ⟨t, ht⟩
  by_cases hle : e.level ≤ n
  · exact hat n hn hle
  · obtain ⟨t, ht⟩ := hat loosest (Nat.le_refl _) e.level_le
    exact ⟨_, .parentheses (Nat.lt_of_not_le hle) ht⟩

/-- Every well-formed expression is written in some way. -/
theorem exists_written {e : Expr} (he : e.WellFormed) :
    ∃ t, Written short false (.level e.level e) t := by
  induction e using Expr.induct with
  | step e ih =>
  obtain ⟨hproper, hparts⟩ := (Expr.wellFormed_iff e).mp he
  have hoperand : ∀ part ∈ e.parts, ∀ n ≤ loosest, ∃ t, Written short false (.level n part) t :=
    fun part hpart n hn => exists_written_operand hn (ih part hpart (hparts part hpart))
  have hinside : ∀ part ∈ e.parts, ∃ t, Written short false (.level loosest part) t :=
    fun part hpart => hoperand part hpart loosest (Nat.le_refl _)
  cases e with
  | literal text =>
    obtain ⟨quote, hvalid⟩ := hproper
    have hwritten : Written short false _ _ := .literal hvalid
    rw [String.ofList_toList] at hwritten
    exact ⟨_, hwritten⟩
  | number value =>
    obtain ⟨digits, hdigits, rfl⟩ := hproper
    exact ⟨digits, .number hdigits nofun⟩
  | path start steps => exact exists_written_path hproper hinside
  | filter base es =>
    obtain ⟨t, hbase⟩ := hinside base (List.mem_cons_self ..)
    obtain ⟨ts, hes⟩ := exists_written_predicates fun e he => hinside e (List.mem_cons_of_mem _ he)
    obtain ⟨e, es, rfl⟩ := List.exists_cons_of_ne_nil hproper
    exact ⟨_, .filter hbase hes⟩
  | call function arguments =>
    obtain ⟨hfunction, nsPrefix, localPart, hvalid, rfl⟩ := hproper
    obtain ⟨t, ht⟩ := exists_written_arguments hinside
    exact ⟨_, .call hvalid hfunction ht⟩
  | binary operator left right =>
    obtain ⟨t, hleft⟩ := hoperand left (by simp [Expr.parts]) operator.level operator.level_le
    obtain ⟨ts, hright⟩ := hoperand right (by simp [Expr.parts]) (operator.level - 1)
      (Nat.le_trans (Nat.sub_le _ _) operator.level_le)
    exact ⟨_, .binary hleft hright⟩
  | negate operand =>
    obtain ⟨t, ht⟩ := hoperand operand (by simp [Expr.parts]) minusLevel (by decide)
    exact ⟨_, .negate ht⟩

end existence

section ends

def EndsWithFraction (t : List Char) : Prop :=
  ∃ whole fraction, IsDigits whole ∧ (∀ c ∈ fraction, c.isDigit = true) ∧
    whole ++ '.' :: fraction <:+ t

theorem EndsWithFraction.append {ts : List Char} (h : EndsWithFraction ts) (t : List Char) :
    EndsWithFraction (t ++ ts) := by
  obtain ⟨whole, fraction, hwhole, hfraction, hsuffix⟩ := h
  exact ⟨whole, fraction, hwhole, hfraction, hsuffix.trans (List.suffix_append t ts)⟩

variable {short final : Bool}

/-- No numeral ends the text of a test or of steps. -/
theorem Written.of_not_level {phrase : Phrase} {t : List Char}
    (h : Written short final phrase t) (hlevel : ∀ n e, phrase ≠ .level n e)
    (harguments : ∀ es, phrase ≠ .arguments es) : Written short true phrase t := by
  induction h with
  | wildcard => exact .wildcard
  | nameTest hvalid => exact .nameTest hvalid
  | namespaceTest hvalid => exact .namespaceTest hvalid
  | typeTest htest => exact .typeTest htest
  | instructionTest hvalid => exact .instructionTest hvalid
  | axisHead haxis _ ih => exact .axisHead haxis (ih nofun nofun)
  | childHead hshort _ ih => exact .childHead hshort (ih nofun nofun)
  | attributeHead hshort _ ih => exact .attributeHead hshort (ih nofun nofun)
  | selfHead hshort => exact .selfHead hshort
  | parentHead hshort => exact .parentHead hshort
  | step _ _ ihHead ih => exact .step (ihHead nofun nofun) (ih nofun nofun)
  | noPredicates => exact .noPredicates
  | predicate he _ _ ih => exact .predicate he (ih nofun nofun)
  | firstStep _ ih => exact .firstStep (ih nofun nofun)
  | nextStep _ _ ihSteps ih => exact .nextStep (ihSteps nofun nofun) (ih nofun nofun)
  | nextDescendantStep hshort _ _ ihSteps ih =>
    exact .nextDescendantStep hshort (ihSteps nofun nofun) (ih nofun nofun)
  | noArguments | lastArgument | argument => exact absurd rfl (harguments _)
  | _ => exact absurd rfl (hlevel _ _)

/-- A written text stands as well where nothing follows, unless a numeral with digits before
its point ends it. -/
theorem Written.final_or_endsWithFraction {n : Nat} {e : Expr} {t : List Char}
    (h : Written short final (.level n e) t) :
    Written short true (.level n e) t ∨ EndsWithFraction t := by
  generalize hphrase : Phrase.level n e = phrase at h
  induction h generalizing n e with
  | root => exact Or.inl .root
  | rootSteps hsteps => exact Or.inl (.rootSteps (hsteps.of_not_level nofun nofun))
  | rootDescendantSteps hshort hsteps =>
    exact Or.inl (.rootDescendantSteps hshort (hsteps.of_not_level nofun nofun))
  | contextSteps hsteps => exact Or.inl (.contextSteps (hsteps.of_not_level nofun nofun))
  | startSteps hstart hsteps =>
    exact Or.inl (.startSteps hstart (hsteps.of_not_level nofun nofun))
  | startDescendantSteps hshort hstart hsteps =>
    exact Or.inl (.startDescendantSteps hshort hstart (hsteps.of_not_level nofun nofun))
  | literal hvalid => exact Or.inl (.literal hvalid)
  | number hvalid =>
    rcases number_at_end hvalid with hread | ⟨whole, fraction, hwhole, hfraction, rfl⟩
    · exact Or.inl (.number hvalid fun _ => hread)
    · exact Or.inr ⟨whole, fraction, hwhole, hfraction, List.suffix_refl _⟩
  | call hvalid hfunction hes => exact Or.inl (.call hvalid hfunction hes)
  | filter hbase hes => exact Or.inl (.filter hbase (hes.of_not_level nofun nofun))
  | negate _ ih => exact (ih rfl).imp .negate fun hend => hend.append ['-']
  | binary hleft _ _ ih =>
    exact (ih rfl).imp (.binary hleft) fun hend => (hend.append [' ']).append _
  | looser hlevel hn _ ih => exact (ih rfl).imp_left (.looser hlevel hn)
  | parentheses hlevel he => exact Or.inl (.parentheses hlevel he)
  | _ => cases hphrase

end ends

end Grammar

end XPathQuery
