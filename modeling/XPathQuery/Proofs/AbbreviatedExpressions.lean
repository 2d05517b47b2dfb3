import XPathQuery.Proofs.ParseRoundtrip

/-!
Abbreviated texts of expressions. The full text of an expression writes every step with its
axis and its test, with one space on each side of an operator and parentheses wherever the
grammar allows them. At any places of it a step may be abbreviated: the text that results
abbreviates the full one, and every text that an expression is written as in full abbreviates
itself.
-/
namespace XPathQuery

open Token

namespace Grammar

def descendantText : List Char := "descendant-or-self::node()".toList

/-- `Abbreviates phrase full t`: the text `full` stands for the phrase without any
abbreviation, and `t` is the same text with abbreviations at some places. -/
inductive Abbreviates : Phrase → List Char → List Char → Prop
  | axisHead {axis word test t} (haxis : (axis, word) ∈ axes)
      (htest : Written false true (.test test) t) :
      Abbreviates (.head axis test) (word.toList ++ ':' :: ':' :: t)
        (word.toList ++ ':' :: ':' :: t)
  | childHead {test t} (htest : Written false true (.test test) t) :
      Abbreviates (.head .child test) ("child".toList ++ ':' :: ':' :: t) t
  | attributeHead {test t} (htest : Written false true (.test test) t) :
      Abbreviates (.head .attribute test) ("attribute".toList ++ ':' :: ':' :: t) ('@' :: t)
  | selfHead : Abbreviates (.head .self .node) "self::node()".toList ['.']
  | parentHead : Abbreviates (.head .parent .node) "parent::node()".toList ['.', '.']
  | step {axis test es full t fulls ts} (hhead : Abbreviates (.head axis test) full t)
      (hes : Abbreviates (.predicates es) fulls ts) :
      Abbreviates (.step (.step axis test es)) (full ++ fulls) (t ++ ts)
  | noPredicates : Abbreviates (.predicates []) [] []
  | predicate {e es full t fulls ts} (he : Abbreviates (.level loosest e) full t)
      (hes : Abbreviates (.predicates es) fulls ts) :
      Abbreviates (.predicates (e :: es)) ('[' :: full ++ ']' :: fulls) ('[' :: t ++ ']' :: ts)
  | firstStep {s full t} (h : Abbreviates (.step s) full t) : Abbreviates (.steps [s]) full t
  | nextStep {steps s full t fulls ts} (hsteps : Abbreviates (.steps steps) fulls ts)
      (hstep : Abbreviates (.step s) full t) :
      Abbreviates (.steps (steps ++ [s])) (fulls ++ '/' :: full) (ts ++ '/' :: t)
  | nextDescendantStep {steps s full t fulls ts} (hsteps : Abbreviates (.steps steps) fulls ts)
      (hstep : Abbreviates (.step s) full t) :
      Abbreviates (.steps (steps ++ [Step.descendantOrSelf, s]))
        (fulls ++ '/' :: descendantText ++ '/' :: full) (ts ++ '/' :: '/' :: t)
  | literal {quote text} (hvalid : (Lexeme.literal quote text).Valid) :
      Abbreviates (.primary (.literal (String.ofList text))) (Lexeme.literal quote text).text
        (Lexeme.literal quote text).text
  | number {digits} (hvalid : IsNumeral digits) :
      Abbreviates (.primary (.number (Double.ofDigits false digits))) digits digits
  | parentheses {e full t} (he : Abbreviates (.level loosest e) full t) :
      Abbreviates (.primary e) ('(' :: full ++ [')']) ('(' :: t ++ [')'])
  | call {nsPrefix localPart es full t} (hvalid : (Lexeme.name nsPrefix localPart).Valid)
      (hfunction : qualifiedText (nsPrefix, localPart) ∉ nodeTypeNames)
      (hes : Abbreviates (.arguments es) full t) :
      Abbreviates (.primary (.call (qualifiedText (nsPrefix, localPart)) es))
        ((Lexeme.name nsPrefix localPart).text ++ '(' :: full ++ [')'])
        ((Lexeme.name nsPrefix localPart).text ++ '(' :: t ++ [')'])
  | noArguments : Abbreviates (.arguments []) [] []
  | lastArgument {e full t} (he : Abbreviates (.level loosest e) full t) :
      Abbreviates (.arguments [e]) full t
  | argument {e next es blanks full t fulls ts} (he : Abbreviates (.level loosest e) full t)
      (hblanks : ∀ c ∈ blanks, Character.isBlank c = true)
      (hes : Abbreviates (.arguments (next :: es)) fulls ts) :
      Abbreviates (.arguments (e :: next :: es)) (full ++ ',' :: (blanks ++ fulls))
        (t ++ ',' :: (blanks ++ ts))
  | unfiltered {e full t} (h : Abbreviates (.primary e) full t) : Abbreviates (.filter e) full t
  | filtered {base e es full t fulls ts} (hbase : Abbreviates (.primary base) full t)
      (hes : Abbreviates (.predicates (e :: es)) fulls ts) :
      Abbreviates (.filter (.filter base (e :: es))) (full ++ fulls) (t ++ ts)
  | root : Abbreviates (.level 0 (.path .root [])) ['/'] ['/']
  | rootSteps {steps full t} (hsteps : Abbreviates (.steps steps) full t) :
      Abbreviates (.level 0 (.path .root steps)) ('/' :: full) ('/' :: t)
  | rootDescendantSteps {steps full t} (hsteps : Abbreviates (.steps steps) full t) :
      Abbreviates (.level 0 (.path .root (Step.descendantOrSelf :: steps)))
        ('/' :: descendantText ++ '/' :: full) ('/' :: '/' :: t)
  | contextSteps {steps full t} (hsteps : Abbreviates (.steps steps) full t) :
      Abbreviates (.level 0 (.path .context steps)) full t
  | filterPath {e full t} (h : Abbreviates (.filter e) full t) : Abbreviates (.level 0 e) full t
  | filterSteps {start steps full t fulls ts} (hstart : Abbreviates (.filter start) full t)
      (hsteps : Abbreviates (.steps steps) fulls ts) :
      Abbreviates (.level 0 (.path (.expr start) steps)) (full ++ '/' :: fulls) (t ++ '/' :: ts)
  | filterDescendantSteps {start steps full t fulls ts}
      (hstart : Abbreviates (.filter start) full t) (hsteps : Abbreviates (.steps steps) fulls ts) :
      Abbreviates (.level 0 (.path (.expr start) (Step.descendantOrSelf :: steps)))
        (full ++ '/' :: descendantText ++ '/' :: fulls) (t ++ '/' :: '/' :: ts)
  | looser {n e full t} (h : Abbreviates (.level n e) full t) (hn : n < loosest) :
      Abbreviates (.level (n + 1) e) full t
  | negate {e full t} (he : Abbreviates (.level minusLevel e) full t) :
      Abbreviates (.level minusLevel (.negate e)) ('-' :: full) ('-' :: t)
  | binary {operator left right full t fulls ts}
      (hleft : Abbreviates (.level operator.level left) full t)
      (hright : Abbreviates (.level (operator.level - 1) right) fulls ts) :
      Abbreviates (.level operator.level (.binary operator left right))
        (full ++ ' ' :: operator.lexeme.text ++ ' ' :: fulls)
        (t ++ ' ' :: operator.lexeme.text ++ ' ' :: ts)

namespace Abbreviates

variable {phrase : Phrase} {full t fulls ts : List Char}

/-- One more step before steps, with a slash after it. -/
theorem cons_steps {s : Step} {steps : List Step} (hstep : Abbreviates (.step s) full t)
    (hsteps : Abbreviates (.steps steps) fulls ts) :
    Abbreviates (.steps (s :: steps)) (full ++ '/' :: fulls) (t ++ '/' :: ts) := by
  generalize hphrase : Phrase.steps steps = phrase at hsteps
  induction hsteps generalizing steps with
  | firstStep h =>
    cases hphrase
    exact .nextStep (.firstStep hstep) h
  | nextStep _ hlast ih =>
    cases hphrase
    have h := (ih rfl).nextStep hlast
    simp only [List.cons_append, List.append_assoc] at h ⊢
    exact h
  | nextDescendantStep _ hlast ih =>
    cases hphrase
    have h := (ih rfl).nextDescendantStep hlast
    simp only [List.cons_append, List.append_assoc] at h ⊢
    exact h
  | _ => cases hphrase

theorem node_written : Written false true (.test .node) "node()".toList :=
  .typeTest (show ("node", .node) ∈ nodeTypeTests by decide)

theorem descendantStep :
    Abbreviates (.step Step.descendantOrSelf) descendantText descendantText := by
  have haxis : (Axis.descendantOrSelf, "descendant-or-self") ∈ axes := by decide
  exact .step (.axisHead haxis node_written) .noPredicates

theorem of_le {m n : Nat} {e : Expr} (h : Abbreviates (.level m e) full t) (hmn : m ≤ n)
    (hn : n ≤ loosest) : Abbreviates (.level n e) full t := by
  induction n, hmn using Nat.le_induction with
  | base => exact h
  | succ n _ ih => exact .looser (ih (Nat.le_of_lt hn)) hn

/-- A full text abbreviates itself: no place needs to be abbreviated. -/
theorem full_self (h : Abbreviates phrase full t) : Abbreviates phrase full full := by
  induction h with
  | axisHead haxis htest => exact .axisHead haxis htest
  | childHead htest => exact .axisHead (show (Axis.child, "child") ∈ axes by decide) htest
  | attributeHead htest =>
    exact .axisHead (show (Axis.attribute, "attribute") ∈ axes by decide) htest
  | selfHead => exact .axisHead (show (Axis.self, "self") ∈ axes by decide) node_written
  | parentHead => exact .axisHead (show (Axis.parent, "parent") ∈ axes by decide) node_written
  | step _ _ ihHead ih => exact .step ihHead ih
  | noPredicates => exact .noPredicates
  | predicate _ _ ih ihMore => exact .predicate ih ihMore
  | firstStep _ ih => exact .firstStep ih
  | nextStep _ _ ihSteps ih => exact .nextStep ihSteps ih
  | nextDescendantStep _ _ ihSteps ih =>
    have h := (ihSteps.nextStep descendantStep).nextStep ih
    rwa [List.append_assoc] at h
  | literal hvalid => exact .literal hvalid
  | number hvalid => exact .number hvalid
  | parentheses _ ih => exact .parentheses ih
  | call hvalid hfunction _ ih => exact .call hvalid hfunction ih
  | noArguments => exact .noArguments
  | lastArgument _ ih => exact .lastArgument ih
  | argument _ hblanks _ ih ihMore => exact .argument ih hblanks ihMore
  | unfiltered _ ih => exact .unfiltered ih
  | filtered _ _ ihBase ih => exact .filtered ihBase ih
  | root => exact .root
  | rootSteps _ ih => exact .rootSteps ih
  | rootDescendantSteps _ ih => exact .rootSteps (descendantStep.cons_steps ih)
  | contextSteps _ ih => exact .contextSteps ih
  | filterPath _ ih => exact .filterPath ih
  | filterSteps _ _ ihStart ih => exact .filterSteps ihStart ih
  | filterDescendantSteps _ _ ihStart ih =>
    have h := ihStart.filterSteps (descendantStep.cons_steps ih)
    rwa [← List.cons_append, ← List.append_assoc] at h
  | looser _ hn ih => exact .looser ih hn
  | negate _ ih => exact .negate ih
  | binary _ _ ihLeft ihRight => exact .binary ihLeft ihRight

end Abbreviates

theorem Written.test_full {short final : Bool} {test : NodeTest} {t : List Char}
    (h : Written short final (.test test) t) : Written false true (.test test) t := by
  cases h with
  | wildcard => exact .wildcard
  | nameTest hvalid => exact .nameTest hvalid
  | namespaceTest hvalid => exact .namespaceTest hvalid
  | typeTest htest => exact .typeTest htest
  | instructionTest hvalid => exact .instructionTest hvalid

/-- Texts with as few parentheses as possible are among the full texts. -/
theorem Written.abbreviates_self {final : Bool} {phrase : Phrase} {t : List Char}
    (h : Written false final phrase t) (hphrase : ∀ test, phrase ≠ .test test) :
    Abbreviates phrase t t := by
  induction h with
  | wildcard | nameTest | namespaceTest | typeTest | instructionTest =>
    exact absurd rfl (hphrase _)
  | childHead hshort | attributeHead hshort | selfHead hshort | parentHead hshort
  | nextDescendantStep hshort | rootDescendantSteps hshort | startDescendantSteps hshort =>
    cases hshort
  | axisHead haxis htest => exact .axisHead haxis htest.test_full
  | step _ _ ihHead ih => exact .step (ihHead nofun) (ih nofun)
  | noPredicates => exact .noPredicates
  | predicate _ _ ih ihMore => exact .predicate (ih nofun) (ihMore nofun)
  | firstStep _ ih => exact .firstStep (ih nofun)
  | nextStep _ _ ihSteps ih => exact .nextStep (ihSteps nofun) (ih nofun)
  | root => exact .root
  | rootSteps _ ih => exact .rootSteps (ih nofun)
  | contextSteps _ ih => exact .contextSteps (ih nofun)
  | startSteps _ _ ihStart ih =>
    have h := Abbreviates.filterSteps (.unfiltered (.parentheses (ihStart nofun))) (ih nofun)
    rwa [List.append_assoc] at h
  | literal hvalid => exact .filterPath (.unfiltered (.literal hvalid))
  | number hvalid => exact .filterPath (.unfiltered (.number hvalid))
  | call hvalid hfunction _ ih =>
    exact .filterPath (.unfiltered (.call hvalid hfunction (ih nofun)))
  | noArguments => exact .noArguments
  | lastArgument _ ih => exact .lastArgument (ih nofun)
  | argument _ _ ih ihMore =>
    have hblank : ∀ c ∈ [' '], Character.isBlank c = true := forall_mem_of_all (by decide)
    exact .argument (ih nofun) hblank (ihMore nofun)
  | filter _ _ ihBase ih =>
    have h := Abbreviates.filtered (.parentheses (ihBase nofun)) (ih nofun)
    rw [List.append_assoc] at h
    exact .filterPath h
  | negate _ ih => exact .negate (ih nofun)
  | binary _ _ ihLeft ihRight => exact .binary (ihLeft nofun) (ihRight nofun)
  | looser hlevel hn _ ih => exact (ih nofun).of_le (Nat.le_of_lt hlevel) hn
  | @parentheses _ n e _ hlevel _ ih =>
    have h : Abbreviates (.level 0 e) _ _ := .filterPath (.unfiltered (.parentheses (ih nofun)))
    exact h.of_le (Nat.zero_le n) (Nat.le_trans (Nat.le_of_lt hlevel) e.level_le)

end Grammar

end XPathQuery
