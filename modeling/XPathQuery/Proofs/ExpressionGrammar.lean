import XPathQuery.Expr.Grammar
import XPathQuery.Proofs.Lexemes

/-!
The grammar of expressions as a relation, one rule for each way to write a phrase. A
phrase is derived from a text, together with the blanks after it, up to the rest of the
text. Operands of one level are grouped to the left, and the levels are counted from the
tightest: paths, unions, minus, products, sums, relations, equality, and, or.
-/
namespace XPathQuery

open Token

namespace Operator

def level : Operator → Nat
  | union => 1
  | arithmetic .multiply | arithmetic .divide | arithmetic .remainder => 3
  | arithmetic .add | arithmetic .subtract => 4
  | comparison .less | comparison .lessOrEqual | comparison .greater
  | comparison .greaterOrEqual => 5
  | comparison .equal | comparison .notEqual => 6
  | and => 7
  | or => 8

def lexeme : Operator → Lexeme
  | union => .symbol "|"
  | arithmetic .multiply => .symbol "*"
  | arithmetic .divide => .name none "div".toList
  | arithmetic .remainder => .name none "mod".toList
  | arithmetic .add => .symbol "+"
  | arithmetic .subtract => .symbol "-"
  | comparison .less => .symbol "<"
  | comparison .lessOrEqual => .symbol "<="
  | comparison .greater => .symbol ">"
  | comparison .greaterOrEqual => .symbol ">="
  | comparison .equal => .symbol "="
  | comparison .notEqual => .symbol "!="
  | and => .name none "and".toList
  | or => .name none "or".toList

def symbols : List String := ["|", "*", "+", "-", "=", "!=", "<", "<=", ">", ">="]

def words : List String := ["div", "mod", "and", "or"]

theorem lexeme_cases (operator : Operator) :
    (∃ word ∈ symbols, operator.lexeme = .symbol word) ∨
      ∃ word ∈ words, operator.lexeme = .name none word.toList := by
  cases operator with
  | comparison relation => cases relation <;> exact Or.inl ⟨_, by decide, rfl⟩
  | arithmetic operation =>
    cases operation with
    | divide => exact Or.inr ⟨"div", by decide, rfl⟩
    | remainder => exact Or.inr ⟨"mod", by decide, rfl⟩
    | _ => exact Or.inl ⟨_, by decide, rfl⟩
  | union => exact Or.inl ⟨_, by decide, rfl⟩
  | and => exact Or.inr ⟨"and", by decide, rfl⟩
  | or => exact Or.inr ⟨"or", by decide, rfl⟩

theorem lexeme_valid (operator : Operator) : operator.lexeme.Valid := by
  have hsymbols : ∀ word ∈ symbols, word ∈ Lexeme.symbols := by decide
  have hnames : ∀ word ∈ words, IsName word.toList := by decide +kernel
  rcases operator.lexeme_cases with ⟨word, hword, hlexeme⟩ | ⟨word, hword, hlexeme⟩
  · rw [hlexeme]
    exact hsymbols word hword
  · rw [hlexeme]
    exact ⟨nofun, hnames word hword⟩

theorem level_pos (operator : Operator) : 0 < operator.level := by
  cases operator with
  | comparison relation => cases relation <;> decide
  | arithmetic operation => cases operation <;> decide
  | _ => decide

theorem level_le (operator : Operator) : operator.level ≤ 8 := by
  cases operator with
  | comparison relation => cases relation <;> decide
  | arithmetic operation => cases operation <;> decide
  | _ => decide

end Operator

namespace Grammar

def minusLevel : Nat := 2

def loosest : Nat := 8

theorem level_ne_minusLevel (operator : Operator) : operator.level ≠ minusLevel := by
  cases operator with
  | comparison relation => cases relation <;> decide
  | arithmetic operation => cases operation <;> decide
  | _ => decide

def nodeTypeTests : List (String × NodeTest) :=
  [("text", .text), ("node", .node), ("comment", .comment),
    ("processing-instruction", .instruction none)]

/-- What a text can be derived as, with the part of an expression that it stands for. -/
inductive Phrase
  | test (test : NodeTest)
  | head (axis : Axis) (test : NodeTest)
  | step (step : Step)
  | predicates (es : List Expr)
  | steps (steps : List Step)
  | location (e : Expr)
  | arguments (es : List Expr)
  | primary (e : Expr)
  | filter (e : Expr)
  | level (level : Nat) (e : Expr)

/-- What is asked of the places where readers of expressions differ from the grammar: of
a numeral and what follows it, of what follows a slash that stands alone, and of what
follows the slash or slashes a path begins with, where a step has to follow. -/
structure Layout where
  numeral : List Char → List Char → Prop
  alone : List Char → Prop
  beforeStep : List Char → Prop

def Layout.free : Layout := ⟨fun _ _ => True, fun _ => True, fun _ => True⟩

/-- What the readers take: a numeral that is read as itself, a slash alone only where no
step can begin, and a first step only right after the slashes, unless it begins with an
at sign. -/
def Layout.tight : Layout where
  numeral digits after := number (digits ++ after) = some (Double.ofDigits false digits, after)
  alone after := stepHead after = none
  beforeStep after := skipBlanks after = after ∨ ∃ tail, skipBlanks after = '@' :: tail

/-- A phrase is derived from a text up to the rest of it. -/
inductive Derives (layout : Layout) : Phrase → List Char → List Char → Prop
  | wildcard {cs rest} (h : (Lexeme.symbol "*").Reads cs rest) :
      Derives layout (.test .wildcard) cs rest
  | nameTest {nsPrefix localPart cs rest} (h : (Lexeme.name nsPrefix localPart).Reads cs rest) :
      Derives layout
        (.test (.name (nsPrefix.map String.ofList) (String.ofList localPart) none)) cs rest
  | namespaceTest {nsPrefix cs rest} (h : (Lexeme.prefixStar nsPrefix).Reads cs rest) :
      Derives layout (.test (.namespaceWildcard (String.ofList nsPrefix) none)) cs rest
  | typeTest {word test cs cs₁ cs₂ rest} (htest : (word, test) ∈ nodeTypeTests)
      (hname : (Lexeme.name none word.toList).Reads cs cs₁)
      (hopen : (Lexeme.symbol "(").Reads cs₁ cs₂) (hclose : (Lexeme.symbol ")").Reads cs₂ rest) :
      Derives layout (.test test) cs rest
  | instructionTest {quote target cs cs₁ cs₂ cs₃ rest}
      (hname : (Lexeme.name none "processing-instruction".toList).Reads cs cs₁)
      (hopen : (Lexeme.symbol "(").Reads cs₁ cs₂)
      (htarget : (Lexeme.literal quote target).Reads cs₂ cs₃)
      (hclose : (Lexeme.symbol ")").Reads cs₃ rest) :
      Derives layout (.test (.instruction (some (String.ofList target)))) cs rest
  | axisHead {axis word test cs cs₁ cs₂ rest} (haxis : (axis, word) ∈ axes)
      (hname : (Lexeme.name none word.toList).Reads cs cs₁)
      (hcolons : (Lexeme.symbol "::").Reads cs₁ cs₂)
      (htest : Derives layout (.test test) cs₂ rest) : Derives layout (.head axis test) cs rest
  | attributeHead {test cs cs₁ rest} (hat : (Lexeme.symbol "@").Reads cs cs₁)
      (htest : Derives layout (.test test) cs₁ rest) :
      Derives layout (.head .attribute test) cs rest
  | childHead {test cs rest} (htest : Derives layout (.test test) cs rest) :
      Derives layout (.head .child test) cs rest
  | selfHead {cs rest} (h : (Lexeme.symbol ".").Reads cs rest) :
      Derives layout (.head .self .node) cs rest
  | parentHead {cs rest} (h : (Lexeme.symbol "..").Reads cs rest) :
      Derives layout (.head .parent .node) cs rest
  | step {axis test predicates cs cs₁ rest} (hhead : Derives layout (.head axis test) cs cs₁)
      (hpredicates : Derives layout (.predicates predicates) cs₁ rest) :
      Derives layout (.step (.step axis test predicates)) cs rest
  | noPredicates {cs} : Derives layout (.predicates []) cs cs
  | predicate {e es cs cs₁ cs₂ cs₃ rest} (hopen : (Lexeme.symbol "[").Reads cs cs₁)
      (he : Derives layout (.level loosest e) cs₁ cs₂)
      (hclose : (Lexeme.symbol "]").Reads cs₂ cs₃)
      (hes : Derives layout (.predicates es) cs₃ rest) :
      Derives layout (.predicates (e :: es)) cs rest
  | firstStep {step cs rest} (h : Derives layout (.step step) cs rest) :
      Derives layout (.steps [step]) cs rest
  | nextStep {steps step cs cs₁ cs₂ rest} (hsteps : Derives layout (.steps steps) cs cs₁)
      (hslash : (Lexeme.symbol "/").Reads cs₁ cs₂) (hstep : Derives layout (.step step) cs₂ rest) :
      Derives layout (.steps (steps ++ [step])) cs rest
  | nextDescendantStep {steps step cs cs₁ cs₂ rest}
      (hsteps : Derives layout (.steps steps) cs cs₁)
      (hslashes : (Lexeme.symbol "//").Reads cs₁ cs₂)
      (hstep : Derives layout (.step step) cs₂ rest) :
      Derives layout (.steps (steps ++ [Step.descendantOrSelf, step])) cs rest
  | root {cs after} (hslash : (Lexeme.symbol "/").Begins cs after) (halone : layout.alone after) :
      Derives layout (.location (.path .root [])) cs (skipBlanks after)
  | rootSteps {steps cs after rest} (hslash : (Lexeme.symbol "/").Begins cs after)
      (hbefore : layout.beforeStep after)
      (hsteps : Derives layout (.steps steps) (skipBlanks after) rest) :
      Derives layout (.location (.path .root steps)) cs rest
  | rootDescendantSteps {steps cs after rest} (hslashes : (Lexeme.symbol "//").Begins cs after)
      (hbefore : layout.beforeStep after)
      (hsteps : Derives layout (.steps steps) (skipBlanks after) rest) :
      Derives layout (.location (.path .root (Step.descendantOrSelf :: steps))) cs rest
  | contextSteps {steps cs rest} (hsteps : Derives layout (.steps steps) cs rest) :
      Derives layout (.location (.path .context steps)) cs rest
  | literal {quote text cs rest} (h : (Lexeme.literal quote text).Reads cs rest) :
      Derives layout (.primary (.literal (String.ofList text))) cs rest
  | number {digits cs after} (h : (Lexeme.numeral digits).Begins cs after)
      (hlayout : layout.numeral digits after) :
      Derives layout (.primary (.number (Double.ofDigits false digits))) cs (skipBlanks after)
  | parentheses {e cs cs₁ cs₂ rest} (hopen : (Lexeme.symbol "(").Reads cs cs₁)
      (he : Derives layout (.level loosest e) cs₁ cs₂)
      (hclose : (Lexeme.symbol ")").Reads cs₂ rest) : Derives layout (.primary e) cs rest
  | call {nsPrefix localPart es cs cs₁ cs₂ cs₃ rest}
      (hname : (Lexeme.name nsPrefix localPart).Reads cs cs₁)
      (hfunction : qualifiedText (nsPrefix, localPart) ∉ nodeTypeNames)
      (hopen : (Lexeme.symbol "(").Reads cs₁ cs₂)
      (hes : Derives layout (.arguments es) cs₂ cs₃)
      (hclose : (Lexeme.symbol ")").Reads cs₃ rest) :
      Derives layout (.primary (.call (qualifiedText (nsPrefix, localPart)) es)) cs rest
  | noArguments {cs} : Derives layout (.arguments []) cs cs
  | lastArgument {e cs rest} (he : Derives layout (.level loosest e) cs rest) :
      Derives layout (.arguments [e]) cs rest
  | argument {e next es cs cs₁ cs₂ rest} (he : Derives layout (.level loosest e) cs cs₁)
      (hcomma : (Lexeme.symbol ",").Reads cs₁ cs₂)
      (hes : Derives layout (.arguments (next :: es)) cs₂ rest) :
      Derives layout (.arguments (e :: next :: es)) cs rest
  | unfiltered {e cs rest} (h : Derives layout (.primary e) cs rest) :
      Derives layout (.filter e) cs rest
  | filtered {base e es cs cs₁ rest} (hbase : Derives layout (.primary base) cs cs₁)
      (hes : Derives layout (.predicates (e :: es)) cs₁ rest) :
      Derives layout (.filter (.filter base (e :: es))) cs rest
  | locationPath {e cs rest} (h : Derives layout (.location e) cs rest) :
      Derives layout (.level 0 e) cs rest
  | filterPath {e cs rest} (h : Derives layout (.filter e) cs rest) :
      Derives layout (.level 0 e) cs rest
  | filterSteps {start steps cs cs₁ cs₂ rest} (hstart : Derives layout (.filter start) cs cs₁)
      (hslash : (Lexeme.symbol "/").Reads cs₁ cs₂)
      (hsteps : Derives layout (.steps steps) cs₂ rest) :
      Derives layout (.level 0 (.path (.expr start) steps)) cs rest
  | filterDescendantSteps {start steps cs cs₁ cs₂ rest}
      (hstart : Derives layout (.filter start) cs cs₁)
      (hslashes : (Lexeme.symbol "//").Reads cs₁ cs₂)
      (hsteps : Derives layout (.steps steps) cs₂ rest) :
      Derives layout (.level 0 (.path (.expr start) (Step.descendantOrSelf :: steps))) cs rest
  | looser {level e cs rest} (h : Derives layout (.level level e) cs rest)
      (hlevel : level < loosest) : Derives layout (.level (level + 1) e) cs rest
  | negate {e cs cs₁ rest} (hminus : (Lexeme.symbol "-").Reads cs cs₁)
      (he : Derives layout (.level minusLevel e) cs₁ rest) :
      Derives layout (.level minusLevel (.negate e)) cs rest
  | binary {operator left right cs cs₁ cs₂ rest}
      (hleft : Derives layout (.level operator.level left) cs cs₁)
      (hoperator : operator.lexeme.Reads cs₁ cs₂)
      (hright : Derives layout (.level (operator.level - 1) right) cs₂ rest) :
      Derives layout (.level operator.level (.binary operator left right)) cs rest

def Phrase.MayBeEmpty : Phrase → Prop
  | predicates _ | arguments _ => True
  | _ => False

def Phrase.Signed : Phrase → Prop
  | level n _ => minusLevel ≤ n
  | _ => False

/-- Only an operand can be a number that takes a whole text. Lists may be empty there. -/
def Phrase.IsNumber (value : Double) (rest : List Char) : Phrase → Prop
  | primary e | filter e | level _ e => e = .number value ∧ rest = []
  | predicates _ | arguments _ => True
  | _ => False

namespace Derives

variable {layout : Layout} {phrase : Phrase} {cs rest : List Char}

theorem suffix (h : Derives layout phrase cs rest) : rest <:+ cs := by
  induction h with
  | wildcard h | nameTest h | namespaceTest h | selfHead h | parentHead h | literal h =>
    exact h.suffix
  | typeTest _ hname hopen hclose =>
    exact hclose.suffix.trans (hopen.suffix.trans hname.suffix)
  | instructionTest hname hopen htarget hclose =>
    exact hclose.suffix.trans (htarget.suffix.trans (hopen.suffix.trans hname.suffix))
  | axisHead _ hname hcolons _ ih => exact ih.trans (hcolons.suffix.trans hname.suffix)
  | attributeHead hsymbol _ ih | negate hsymbol _ ih => exact ih.trans hsymbol.suffix
  | childHead _ ih | firstStep _ ih | contextSteps _ ih | lastArgument _ ih | unfiltered _ ih
  | locationPath _ ih | filterPath _ ih | looser _ _ ih => exact ih
  | step _ _ ihFirst ihSecond | filtered _ _ ihFirst ihSecond => exact ihSecond.trans ihFirst
  | noPredicates | noArguments => exact List.suffix_rfl
  | predicate hopen _ hclose _ ihFirst ihSecond =>
    exact ihSecond.trans (hclose.suffix.trans (ihFirst.trans hopen.suffix))
  | nextStep _ hsymbol _ ihFirst ihSecond | nextDescendantStep _ hsymbol _ ihFirst ihSecond
  | argument _ hsymbol _ ihFirst ihSecond | filterSteps _ hsymbol _ ihFirst ihSecond
  | filterDescendantSteps _ hsymbol _ ihFirst ihSecond | binary _ hsymbol _ ihFirst ihSecond =>
    exact ihSecond.trans (hsymbol.suffix.trans ihFirst)
  | root hbegins _ | number hbegins _ => exact hbegins.reads.suffix
  | rootSteps hbegins _ _ ih | rootDescendantSteps hbegins _ _ ih =>
    exact ih.trans hbegins.reads.suffix
  | parentheses hopen _ hclose ih => exact hclose.suffix.trans (ih.trans hopen.suffix)
  | call hname _ hopen _ hclose ih =>
    exact hclose.suffix.trans (ih.trans (hopen.suffix.trans hname.suffix))

/-- What the grammar derives in some layout it derives in every layout that asks less. -/
theorem mono {layout' : Layout} (hnumeral : ∀ digits after, layout.numeral digits after →
      layout'.numeral digits after) (halone : ∀ after, layout.alone after → layout'.alone after)
    (hbefore : ∀ after, layout.beforeStep after → layout'.beforeStep after)
    (h : Derives layout phrase cs rest) : Derives layout' phrase cs rest := by
  induction h with
  | wildcard h => exact .wildcard h
  | nameTest h => exact .nameTest h
  | namespaceTest h => exact .namespaceTest h
  | typeTest htest hname hopen hclose => exact .typeTest htest hname hopen hclose
  | instructionTest hname hopen htarget hclose => exact .instructionTest hname hopen htarget hclose
  | axisHead haxis hname hcolons _ ih => exact .axisHead haxis hname hcolons ih
  | attributeHead hat _ ih => exact .attributeHead hat ih
  | childHead _ ih => exact .childHead ih
  | selfHead h => exact .selfHead h
  | parentHead h => exact .parentHead h
  | step _ _ ihHead ihPredicates => exact .step ihHead ihPredicates
  | noPredicates => exact .noPredicates
  | predicate hopen _ hclose _ ih ihMore => exact .predicate hopen ih hclose ihMore
  | firstStep _ ih => exact .firstStep ih
  | nextStep _ hslash _ ihSteps ih => exact .nextStep ihSteps hslash ih
  | nextDescendantStep _ hslashes _ ihSteps ih => exact .nextDescendantStep ihSteps hslashes ih
  | root hslash h => exact .root hslash (halone _ h)
  | rootSteps hslash h _ ih => exact .rootSteps hslash (hbefore _ h) ih
  | rootDescendantSteps hslashes h _ ih => exact .rootDescendantSteps hslashes (hbefore _ h) ih
  | contextSteps _ ih => exact .contextSteps ih
  | literal h => exact .literal h
  | number h hlayout => exact .number h (hnumeral _ _ hlayout)
  | parentheses hopen _ hclose ih => exact .parentheses hopen ih hclose
  | call hname hfunction hopen _ hclose ih => exact .call hname hfunction hopen ih hclose
  | noArguments => exact .noArguments
  | lastArgument _ ih => exact .lastArgument ih
  | argument _ hcomma _ ih ihMore => exact .argument ih hcomma ihMore
  | unfiltered _ ih => exact .unfiltered ih
  | filtered _ _ ihBase ih => exact .filtered ihBase ih
  | locationPath _ ih => exact .locationPath ih
  | filterPath _ ih => exact .filterPath ih
  | filterSteps _ hslash _ ihStart ih => exact .filterSteps ihStart hslash ih
  | filterDescendantSteps _ hslashes _ ihStart ih =>
    exact .filterDescendantSteps ihStart hslashes ih
  | looser _ hlevel ih => exact .looser ih hlevel
  | negate hminus _ ih => exact .negate hminus ih
  | binary _ hoperator _ ihLeft ihRight => exact .binary ihLeft hoperator ihRight

theorem free (h : Derives layout phrase cs rest) : Derives .free phrase cs rest :=
  h.mono (fun _ _ _ => trivial) (fun _ _ => trivial) (fun _ _ => trivial)

/-- Every phrase but an empty list begins with a character that opens a lexeme, or with a
minus sign. -/
theorem opens (h : Derives layout phrase cs rest) (hphrase : ¬phrase.MayBeEmpty) :
    ∃ c tail, cs = c :: tail ∧ (Lexeme.opensLexeme c = true ∨ phrase.Signed ∧ c = '-') := by
  have hopens : ∀ {phrase : Phrase} {cs after : List Char} {lexeme : Lexeme},
      lexeme.Begins cs after → lexeme.Opens →
      ∃ c tail, cs = c :: tail ∧ (Lexeme.opensLexeme c = true ∨ phrase.Signed ∧ c = '-') := by
    intro phrase cs after lexeme hbegins hlexeme
    obtain ⟨c, tail, hcs, hc⟩ := hbegins.opens hlexeme
    exact ⟨c, tail, hcs, Or.inl hc⟩
  induction h with
  | wildcard h | nameTest h | namespaceTest h | typeTest _ h | instructionTest h
  | axisHead _ h | attributeHead h | selfHead h | parentHead h | literal h | parentheses h
  | call h =>
    obtain ⟨after, hbegins, -⟩ := h
    exact hopens hbegins (by simp [Lexeme.Opens])
  | root h | rootSteps h | rootDescendantSteps h | number h =>
    exact hopens h (by simp [Lexeme.Opens])
  | childHead _ ih | firstStep _ ih | contextSteps _ ih | unfiltered _ ih | step _ _ ih
  | filtered _ _ ih | nextStep _ _ _ ih | nextDescendantStep _ _ _ ih | binary _ _ _ ih =>
    exact ih id
  | locationPath _ ih | filterPath _ ih | filterSteps _ _ _ ih | filterDescendantSteps _ _ _ ih =>
    obtain ⟨c, tail, hcs, hc | ⟨hsigned, -⟩⟩ := ih id
    · exact ⟨c, tail, hcs, Or.inl hc⟩
    · exact hsigned.elim
  | looser _ _ ih =>
    obtain ⟨c, tail, hcs, hc⟩ := ih id
    exact ⟨c, tail, hcs, hc.imp_right fun hminus => ⟨Nat.le_succ_of_le hminus.1, hminus.2⟩⟩
  | negate h =>
    obtain ⟨after, ⟨-, htext, -⟩, -⟩ := h
    exact ⟨'-', after, htext, Or.inr ⟨Nat.le_refl _, rfl⟩⟩
  | noPredicates | predicate | noArguments | lastArgument | argument => exact absurd trivial hphrase

theorem head?_ne (h : Derives layout phrase cs rest) (hphrase : ¬phrase.MayBeEmpty) {c : Char}
    (hc : Lexeme.opensLexeme c = false) (hminus : c ≠ '-') : cs.head? ≠ some c := by
  obtain ⟨d, tail, rfl, hd⟩ := h.opens hphrase
  intro hhead
  obtain rfl := Option.some.inj hhead
  rcases hd with hd | ⟨-, rfl⟩
  · cases hc.symm.trans hd
  · exact hminus rfl

theorem skipBlanks_eq_self (h : Derives layout phrase cs rest) (hphrase : ¬phrase.MayBeEmpty) :
    skipBlanks cs = cs := by
  apply Token.skipBlanks_eq_self
  intro c hc
  rw [Bool.eq_false_iff]
  intro hblank
  rcases Character.eq_of_isBlank hblank with rfl | rfl | rfl | rfl <;>
    exact h.head?_ne hphrase (Lexeme.opensLexeme_eq_false_of_mem _ (by decide)) (by decide) hc

/-- A text that is a numeral is derived as the number it denotes and as nothing else. -/
theorem of_numeral (h : Derives layout phrase cs rest) (hcs : IsNumeral cs) :
    phrase.IsNumber (Double.ofDigits false cs) rest := by
  have hother : ∀ {lexeme : Lexeme} {after}, lexeme.Reads cs after →
      lexeme = .numeral cs := fun ⟨_, hbegins, _⟩ => (hbegins.of_numeral hcs).1
  induction h with
  | wildcard h | nameTest h | namespaceTest h | typeTest _ h | instructionTest h
  | axisHead _ h | attributeHead h | selfHead h | parentHead h | literal h | parentheses h
  | call h | negate h => cases hother h
  | root h | rootSteps h | rootDescendantSteps h => cases hother h.reads
  | step _ _ ih | firstStep _ ih | nextStep _ _ _ ih | nextDescendantStep _ _ _ ih
  | contextSteps _ ih | childHead _ ih | unfiltered _ ih | filterPath _ ih | looser _ _ ih =>
    exact ih hcs hother
  | locationPath _ ih => exact (ih hcs hother).elim
  | noPredicates | predicate | noArguments | lastArgument | argument => trivial
  | number h =>
    obtain ⟨hdigits, rfl⟩ := h.of_numeral hcs
    cases hdigits
    exact ⟨rfl, rfl⟩
  | filtered _ hes ih =>
    obtain ⟨-, rfl⟩ := ih hcs hother
    cases hes with
    | predicate hopen => exact absurd rfl hopen.ne_nil
  | filterSteps _ hsymbol _ ih | filterDescendantSteps _ hsymbol _ ih | binary _ hsymbol _ ih =>
    obtain ⟨-, rfl⟩ := ih hcs hother
    exact absurd rfl hsymbol.ne_nil

end Derives

end Grammar

end XPathQuery
