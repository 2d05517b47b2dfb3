import XPathQuery.Proofs.ParserCompleteness
import XPathQuery.Proofs.WrittenExpressions

/-!
The grammar derives an expression from each text that it is written as, up to whatever
comes after the text.
-/
namespace XPathQuery

open Token Grammar

namespace Grammar

structure Closed (chars : String) (after : List Char) : Prop where
  next : ∀ c, after.head? = some c → c ∈ chars.toList
  noAt : (skipBlanks after).head? ≠ some '@'

def Phrase.closers : Phrase → String
  | .level _ _ => " )],"
  | .arguments _ => ")"
  | _ => " )],/["

/-- A phrase is derived from its text and what comes after it. A list may be empty, so that
its text begins with the blanks after it. -/
structure Phrase.IsDerived (phrase : Phrase) (t after : List Char) : Prop where
  derives : Derives .tight phrase (skipBlanks (t ++ after)) (skipBlanks after)
  unspaced : ¬phrase.MayBeEmpty → skipBlanks (t ++ after) = t ++ after

theorem isDerived_of_derives {phrase : Phrase} {t after : List Char}
    (hphrase : ¬phrase.MayBeEmpty) (h : Derives .tight phrase (t ++ after) (skipBlanks after)) :
    phrase.IsDerived t after := by
  have hself := h.skipBlanks_eq_self hphrase
  exact ⟨by rwa [hself], fun _ => hself⟩

theorem Phrase.IsDerived.text {phrase : Phrase} {t after : List Char}
    (h : phrase.IsDerived t after) (hphrase : ¬phrase.MayBeEmpty) :
    Derives .tight phrase (t ++ after) (skipBlanks after) := by
  rw [← h.unspaced hphrase]
  exact h.derives

section texts

variable {chars : String} {after : List Char}

theorem closed_nil : Closed chars [] := ⟨nofun, nofun⟩

theorem closed_cons {c : Char} (hc : c ∈ chars.toList) (hblank : Character.isBlank c = false)
    (hat : c ≠ '@') : Closed chars (c :: after) := by
  refine ⟨?_, ?_⟩
  · rintro d ⟨⟩
    exact hc
  · rw [Token.skipBlanks_eq_self ((stopsAt_cons _ _ _).mpr hblank)]
    exact fun h => hat (Option.some.inj h)

theorem closed_bracket : Closed " )]," (']' :: after) :=
  closed_cons (by decide) (by decide) (by decide)

theorem closed_comma : Closed " )]," (',' :: after) :=
  closed_cons (by decide) (by decide) (by decide)

theorem closed_parenthesis : Closed " )]," (')' :: after) :=
  closed_cons (by decide) (by decide) (by decide)

theorem closed_arguments : Closed ")" (')' :: after) :=
  closed_cons (by decide) (by decide) (by decide)

theorem closed_slash : Closed " )],/[" ('/' :: after) :=
  closed_cons (by decide) (by decide) (by decide)

theorem Closed.stopsAt (h : Closed chars after) {p : Char → Bool}
    (hp : ∀ c ∈ chars.toList, p c = false) : StopsAt p after :=
  fun c hc => hp c (h.next c hc)

theorem Closed.stopsAt_isNameChar (h : Closed " )],/[" after) : StopsAt isNameChar after := by
  have hchars : " )],/[".toList ⊆ punctuation := by decide
  exact h.stopsAt fun c hc => isNameChar_eq_false_of_mem c (hchars hc)

theorem Closed.mono {chars' : String} (h : Closed chars after)
    (hsubset : chars.toList ⊆ chars'.toList) : Closed chars' after :=
  ⟨fun c hc => hsubset (h.next c hc), h.noAt⟩

/-- What closes arguments closes the last of them. -/
theorem Closed.of_arguments (h : Closed ")" after) : Closed " )]," after := h.mono (by decide)

/-- What closes an operand closes the last step of a path. -/
theorem Closed.of_level (h : Closed " )]," after) : Closed " )],/[" after := h.mono (by decide)

theorem symbol_begins_text {word : String} (hword : word ∈ Lexeme.symbols)
    (hends : StopsAt (Lexeme.extends? word) after) :
    (Lexeme.symbol word).Begins (word.toList ++ after) after :=
  ⟨hword, rfl, hends⟩

theorem symbol_reads_text {word : String} (hword : word ∈ Lexeme.wholeSymbols) :
    (Lexeme.symbol word).Reads (word.toList ++ after) (skipBlanks after) :=
  (symbol_begins_text (Lexeme.mem_symbols_of_whole word hword)
    fun c _ => Lexeme.extends?_eq_false_of_whole hword c).reads

theorem name_begins_text {nsPrefix : Option (List Char)} {localPart : List Char}
    (hvalid : (Lexeme.name nsPrefix localPart).Valid) (hstops : StopsAt isNameChar after)
    (hcolon : ¬Lexeme.BeginsLocalPart after) :
    (Lexeme.name nsPrefix localPart).Begins ((Lexeme.name nsPrefix localPart).text ++ after)
      after := by
  refine ⟨hvalid, rfl, ?_⟩
  cases nsPrefix with
  | none => exact ⟨hstops, hcolon⟩
  | some p => exact hstops

theorem Closed.not_beginsLocalPart (h : Closed chars after) (hchars : ':' ∉ chars.toList) :
    ¬Lexeme.BeginsLocalPart after := by
  rintro ⟨c, tail, rfl, -⟩
  exact hchars (h.next ':' rfl)

theorem not_beginsLocalPart_cons {c : Char} (hc : c ≠ ':') :
    ¬Lexeme.BeginsLocalPart (c :: after) := by
  rintro ⟨d, tail, hcons, -⟩
  exact hc (List.cons.inj hcons).1

theorem name_reads_parenthesis {nsPrefix : Option (List Char)} {localPart : List Char}
    (hvalid : (Lexeme.name nsPrefix localPart).Valid) :
    (Lexeme.name nsPrefix localPart).Reads
      ((Lexeme.name nsPrefix localPart).text ++ '(' :: after) ('(' :: after) := by
  have hstops : StopsAt isNameChar ('(' :: after) :=
    stopsAt_isNameChar_cons (by decide)
  exact ⟨_, name_begins_text hvalid hstops (not_beginsLocalPart_cons (by decide)), rfl⟩

end texts

section phrases

variable {t ts after : List Char}

theorem nameTest_isDerived {nsPrefix : Option (List Char)} {localPart : List Char}
    (hvalid : (Lexeme.name nsPrefix localPart).Valid) (hafter : Closed " )],/[" after) :
    (Phrase.test (.name (nsPrefix.map String.ofList) (String.ofList localPart) none)).IsDerived
      (Lexeme.name nsPrefix localPart).text after := by
  refine isDerived_of_derives id (.nameTest (Lexeme.Begins.reads ?_))
  exact name_begins_text hvalid hafter.stopsAt_isNameChar
    (hafter.not_beginsLocalPart (by decide))

theorem typeTest_isDerived {word : String} {test : NodeTest}
    (htest : (word, test) ∈ nodeTypeTests) :
    (Phrase.test test).IsDerived (word.toList ++ ['(', ')']) after := by
  have hvalid : (Lexeme.name none word.toList).Valid :=
    ⟨nofun, isName_of_mem_nodeTypeTests _ htest⟩
  refine isDerived_of_derives id ?_
  rw [List.append_assoc]
  exact .typeTest htest (name_reads_parenthesis hvalid) (symbol_reads_text (by decide))
    (symbol_reads_text (by decide))

theorem instructionTest_isDerived {quote : Char} {target : List Char}
    (hvalid : (Lexeme.literal quote target).Valid) :
    (Phrase.test (.instruction (some (String.ofList target)))).IsDerived
      ("processing-instruction".toList ++ '(' :: (Lexeme.literal quote target).text ++ [')'])
      after := by
  have hname : (Lexeme.name none "processing-instruction".toList).Valid :=
    ⟨nofun, isName_of_mem_nodeTypeNames "processing-instruction" (by decide)⟩
  have hquote : Character.isBlank quote = false := by
    rcases hvalid.1 with rfl | rfl <;> decide
  have htarget : (Lexeme.literal quote target).Reads
      (skipBlanks ((Lexeme.literal quote target).text ++ ')' :: after)) (')' :: after) := by
    rw [skipBlanks_of_head? rfl hquote]
    exact ⟨')' :: after, ⟨hvalid, rfl, trivial⟩, rfl⟩
  refine isDerived_of_derives id ?_
  rw [List.append_assoc, List.append_assoc]
  exact .instructionTest (name_reads_parenthesis hname) (symbol_reads_text (by decide)) htarget
    (symbol_reads_text (by decide))

theorem axisHead_isDerived {axis : Axis} {word : String} {test : NodeTest}
    (haxis : (axis, word) ∈ axes) (htest : (Phrase.test test).IsDerived t after) :
    (Phrase.head axis test).IsDerived (word.toList ++ ':' :: ':' :: t) after := by
  have hvalid : (Lexeme.name none word.toList).Valid := ⟨nofun, isName_of_mem_axes _ haxis⟩
  refine isDerived_of_derives id ?_
  rw [List.append_assoc]
  refine .axisHead haxis (name_begins_text hvalid ?_ ?_).reads (symbol_reads_text (by decide))
    htest.derives
  · exact stopsAt_isNameChar_cons (by decide)
  · rintro ⟨c, tail, hcons, hc⟩
    obtain rfl : ':' = c := (List.cons.inj (List.cons.inj hcons).2).1
    rcases hc with hc | hc
    · cases hc.symm.trans (isNameStart_eq_false_of_mem _ (by decide))
    · cases hc

theorem attributeHead_isDerived {test : NodeTest}
    (htest : (Phrase.test test).IsDerived t after) :
    (Phrase.head .attribute test).IsDerived ('@' :: t) after :=
  isDerived_of_derives id (.attributeHead (symbol_reads_text (by decide)) htest.derives)

theorem childHead_isDerived {test : NodeTest} (htest : (Phrase.test test).IsDerived t after) :
    (Phrase.head .child test).IsDerived t after :=
  isDerived_of_derives id (.childHead (htest.text id))

theorem selfHead_isDerived (hafter : Closed " )],/[" after) :
    (Phrase.head .self .node).IsDerived ['.'] after := by
  refine isDerived_of_derives id (.selfHead (Lexeme.Begins.reads ?_))
  exact symbol_begins_text (by decide) (hafter.stopsAt (forall_mem_of_all (by decide)))

theorem parentHead_isDerived : (Phrase.head .parent .node).IsDerived ['.', '.'] after :=
  isDerived_of_derives id (.parentHead (symbol_reads_text (by decide)))

theorem step_isDerived {axis : Axis} {test : NodeTest} {es : List Expr}
    (hhead : (Phrase.head axis test).IsDerived t (ts ++ after))
    (hes : (Phrase.predicates es).IsDerived ts after) :
    (Phrase.step (.step axis test es)).IsDerived (t ++ ts) after := by
  refine isDerived_of_derives id ?_
  rw [List.append_assoc]
  exact .step (hhead.text id) hes.derives

theorem noPredicates_isDerived : (Phrase.predicates []).IsDerived [] after :=
  ⟨.noPredicates, fun hphrase => absurd trivial hphrase⟩

theorem predicate_isDerived {e : Expr} {es : List Expr}
    (he : (Phrase.level loosest e).IsDerived t (']' :: (ts ++ after)))
    (hes : (Phrase.predicates es).IsDerived ts after) :
    (Phrase.predicates (e :: es)).IsDerived ('[' :: t ++ ']' :: ts) after := by
  refine ⟨?_, fun hphrase => absurd trivial hphrase⟩
  rw [List.append_assoc]
  exact .predicate (symbol_reads_text (by decide)) he.derives (symbol_reads_text (by decide))
    hes.derives

theorem firstStep_isDerived {s : Step} (h : (Phrase.step s).IsDerived t after) :
    (Phrase.steps [s]).IsDerived t after :=
  isDerived_of_derives id (.firstStep (h.text id))

def Phrase.IsStep : Phrase → Prop
  | .test _ | .head _ _ | .step _ | .steps _ => True
  | _ => False

theorem Derives.head?_ne_slash {layout : Layout} {phrase : Phrase} {cs rest : List Char}
    (h : Derives layout phrase cs rest) (hphrase : phrase.IsStep) : cs.head? ≠ some '/' := by
  have hname : ∀ {qname : Option (List Char) × List Char} {after},
      qualifiedName cs = some (qname, after) → cs.head? ≠ some '/' :=
    fun h => head?_ne_punctuation h (by decide)
  induction h with
  | wildcard h | attributeHead h | selfHead h | parentHead h =>
    obtain ⟨after, ⟨-, rfl, -⟩, -⟩ := h
    exact nofun
  | nameTest h | typeTest _ h | instructionTest h | axisHead _ h =>
    obtain ⟨after, hbegins, -⟩ := h
    exact hname (qualifiedName_of_begins hbegins)
  | namespaceTest h =>
    obtain ⟨after, hbegins, -⟩ := h
    exact hname (qualifiedName_of_prefixStar hbegins)
  | childHead _ ih | firstStep _ ih => exact ih trivial hname
  | step _ _ ih => exact ih trivial hname
  | nextStep _ _ _ ih | nextDescendantStep _ _ _ ih => exact ih trivial hname
  | _ => exact hphrase.elim

theorem Phrase.IsDerived.slash_stopsAt {phrase : Phrase} (h : phrase.IsDerived t after)
    (hphrase : phrase.IsStep) (hlist : ¬phrase.MayBeEmpty) :
    StopsAt (Lexeme.extends? "/") (t ++ after) := by
  intro c hc
  have hne := (h.text hlist).head?_ne_slash hphrase
  rw [hc] at hne
  exact beq_eq_false_iff_ne.mpr fun hslash => hne (congrArg some hslash)

theorem nextStep_isDerived {steps : List Step} {s : Step}
    (hsteps : (Phrase.steps steps).IsDerived ts ('/' :: (t ++ after)))
    (hstep : (Phrase.step s).IsDerived t after) :
    (Phrase.steps (steps ++ [s])).IsDerived (ts ++ '/' :: t) after := by
  have hslash := hstep.slash_stopsAt trivial id
  have hreads : (Lexeme.symbol "/").Reads ('/' :: (t ++ after)) (skipBlanks (t ++ after)) :=
    (symbol_begins_text (by decide) hslash).reads
  refine isDerived_of_derives id ?_
  rw [List.append_assoc]
  exact .nextStep (hsteps.text id) hreads hstep.derives

theorem nextDescendantStep_isDerived {steps : List Step} {s : Step}
    (hsteps : (Phrase.steps steps).IsDerived ts ('/' :: '/' :: (t ++ after)))
    (hstep : (Phrase.step s).IsDerived t after) :
    (Phrase.steps (steps ++ [Step.descendantOrSelf, s])).IsDerived (ts ++ '/' :: '/' :: t)
      after := by
  refine isDerived_of_derives id ?_
  rw [List.append_assoc]
  exact .nextDescendantStep (hsteps.text id) (symbol_reads_text (by decide)) hstep.derives

theorem root_isDerived (hafter : Closed " )]," after) :
    (Phrase.level 0 (.path .root [])).IsDerived ['/'] after := by
  have hpoint : after.head? ≠ some '.' := fun h => absurd (hafter.next _ h) (by decide)
  have halone : stepHead after = none := by
    rw [stepHead_eq hpoint hafter.noAt]
    cases after with
    | nil => rfl
    | cons c after =>
      have hc : c ∈ [' ', ')', ']', ','] := hafter.next c rfl
      simp only [List.mem_cons, List.not_mem_nil, or_false] at hc
      rcases hc with rfl | rfl | rfl | rfl <;> rfl
  have hslash : StopsAt (Lexeme.extends? "/") after :=
    hafter.stopsAt (forall_mem_of_all (by decide))
  exact isDerived_of_derives id
    (.locationPath (.root (symbol_begins_text (by decide) hslash) halone))

theorem rootSteps_isDerived {steps : List Step} (hsteps : (Phrase.steps steps).IsDerived t after) :
    (Phrase.level 0 (.path .root steps)).IsDerived ('/' :: t) after := by
  have hslash := hsteps.slash_stopsAt trivial id
  have hself := hsteps.unspaced id
  exact isDerived_of_derives id (.locationPath
    (.rootSteps (symbol_begins_text (by decide) hslash) (Or.inl hself) hsteps.derives))

theorem rootDescendantSteps_isDerived {steps : List Step}
    (hsteps : (Phrase.steps steps).IsDerived t after) :
    (Phrase.level 0 (.path .root (Step.descendantOrSelf :: steps))).IsDerived ('/' :: '/' :: t)
      after := by
  have hself := hsteps.unspaced id
  have hslashes : (Lexeme.symbol "//").Begins ('/' :: '/' :: (t ++ after)) (t ++ after) :=
    symbol_begins_text (by decide) fun _ _ => rfl
  exact isDerived_of_derives id
    (.locationPath (.rootDescendantSteps hslashes (Or.inl hself) hsteps.derives))

theorem contextSteps_isDerived {steps : List Step}
    (hsteps : (Phrase.steps steps).IsDerived t after) :
    (Phrase.level 0 (.path .context steps)).IsDerived t after :=
  isDerived_of_derives id (.locationPath (.contextSteps (hsteps.text id)))

theorem literal_isDerived {quote : Char} {text : List Char}
    (hvalid : (Lexeme.literal quote text).Valid) :
    (Phrase.primary (.literal (String.ofList text))).IsDerived (Lexeme.literal quote text).text
      after :=
  isDerived_of_derives id (.literal ⟨after, ⟨hvalid, rfl, trivial⟩, rfl⟩)

/-- A numeral that something follows is read as it is written. -/
theorem number_isDerived {digits : List Char} (hvalid : IsNumeral digits)
    (hafter : Closed " )],/[" after)
    (hend : after = [] → Token.number digits = some (Double.ofDigits false digits, [])) :
    (Phrase.primary (.number (Double.ofDigits false digits))).IsDerived digits after := by
  have hstops : (Lexeme.numeral digits).EndsBefore after := by
    intro c hc
    have hnone : ∀ c ∈ " )],/[".toList, c.isDigit = false ∧ c ≠ '.' :=
      forall_mem_of_all (by decide)
    obtain ⟨hdigit, hpoint⟩ := hnone c (hafter.next c hc)
    simp [hdigit, hpoint]
  have hnumber : Token.number (digits ++ after) = some (Double.ofDigits false digits, after) := by
    by_cases hempty : after = []
    · rw [hempty, List.append_nil]
      exact hend hempty
    · exact number_of_begins ⟨hvalid, rfl, hstops⟩ hempty
  exact isDerived_of_derives id (.number ⟨hvalid, rfl, hstops⟩ hnumber)

theorem call_isDerived {nsPrefix : Option (List Char)} {localPart : List Char} {es : List Expr}
    (hvalid : (Lexeme.name nsPrefix localPart).Valid)
    (hfunction : qualifiedText (nsPrefix, localPart) ∉ nodeTypeNames)
    (hes : (Phrase.arguments es).IsDerived t (')' :: after)) :
    (Phrase.primary (.call (qualifiedText (nsPrefix, localPart)) es)).IsDerived
      ((Lexeme.name nsPrefix localPart).text ++ '(' :: t ++ [')']) after := by
  refine isDerived_of_derives id ?_
  rw [List.append_assoc, List.append_assoc]
  exact .call (name_reads_parenthesis hvalid) hfunction (symbol_reads_text (by decide))
    hes.derives (symbol_reads_text (by decide))

theorem parenthesized_isDerived {e : Expr}
    (he : (Phrase.level loosest e).IsDerived t (')' :: after)) :
    (Phrase.primary e).IsDerived ('(' :: t ++ [')']) after := by
  refine isDerived_of_derives id ?_
  rw [List.append_assoc]
  exact .parentheses (symbol_reads_text (by decide)) he.derives (symbol_reads_text (by decide))

theorem unfiltered_isDerived {e : Expr} (he : (Phrase.primary e).IsDerived t after) :
    (Phrase.filter e).IsDerived t after :=
  isDerived_of_derives id (.unfiltered (he.text id))

theorem filtered_isDerived {base e : Expr} {es : List Expr}
    (hbase : (Phrase.primary base).IsDerived t (ts ++ after))
    (hes : (Phrase.predicates (e :: es)).IsDerived ts after) :
    (Phrase.filter (.filter base (e :: es))).IsDerived (t ++ ts) after := by
  refine isDerived_of_derives id ?_
  rw [List.append_assoc]
  exact .filtered (hbase.text id) hes.derives

theorem filterPath_isDerived {e : Expr} (he : (Phrase.filter e).IsDerived t after) :
    (Phrase.level 0 e).IsDerived t after :=
  isDerived_of_derives id (.filterPath (he.text id))

theorem operand_isDerived {e : Expr} (he : (Phrase.primary e).IsDerived t after) :
    (Phrase.level 0 e).IsDerived t after :=
  filterPath_isDerived (unfiltered_isDerived he)

theorem filterSteps_isDerived {start : Expr} {steps : List Step}
    (hstart : (Phrase.filter start).IsDerived t ('/' :: (ts ++ after)))
    (hsteps : (Phrase.steps steps).IsDerived ts after) :
    (Phrase.level 0 (.path (.expr start) steps)).IsDerived (t ++ '/' :: ts) after := by
  have hslash := hsteps.slash_stopsAt trivial id
  have hreads : (Lexeme.symbol "/").Reads ('/' :: (ts ++ after)) (skipBlanks (ts ++ after)) :=
    (symbol_begins_text (by decide) hslash).reads
  refine isDerived_of_derives id ?_
  rw [List.append_assoc]
  exact .filterSteps (hstart.text id) hreads hsteps.derives

theorem filterDescendantSteps_isDerived {start : Expr} {steps : List Step}
    (hstart : (Phrase.filter start).IsDerived t ('/' :: '/' :: (ts ++ after)))
    (hsteps : (Phrase.steps steps).IsDerived ts after) :
    (Phrase.level 0 (.path (.expr start) (Step.descendantOrSelf :: steps))).IsDerived
      (t ++ '/' :: '/' :: ts) after := by
  refine isDerived_of_derives id ?_
  rw [List.append_assoc]
  exact .filterDescendantSteps (hstart.text id) (symbol_reads_text (by decide)) hsteps.derives

theorem noArguments_isDerived : (Phrase.arguments []).IsDerived [] after :=
  ⟨.noArguments, fun hphrase => absurd trivial hphrase⟩

theorem lastArgument_isDerived {e : Expr} (he : (Phrase.level loosest e).IsDerived t after) :
    (Phrase.arguments [e]).IsDerived t after :=
  ⟨.lastArgument he.derives, fun hphrase => absurd trivial hphrase⟩

/-- Any blanks may stand after a comma. -/
theorem argument_isDerived {e next : Expr} {es : List Expr} {blanks : List Char}
    (hblanks : ∀ c ∈ blanks, Character.isBlank c = true)
    (he : (Phrase.level loosest e).IsDerived t (',' :: (blanks ++ (ts ++ after))))
    (hes : (Phrase.arguments (next :: es)).IsDerived ts after) :
    (Phrase.arguments (e :: next :: es)).IsDerived (t ++ ',' :: (blanks ++ ts)) after := by
  have hcomma : (Lexeme.symbol ",").Reads (',' :: (blanks ++ (ts ++ after)))
      (skipBlanks (blanks ++ (ts ++ after))) := symbol_reads_text (by decide)
  have hskip : skipBlanks (blanks ++ (ts ++ after)) = skipBlanks (ts ++ after) :=
    List.dropWhile_append_of_pos hblanks
  rw [hskip] at hcomma
  refine ⟨?_, fun hphrase => absurd trivial hphrase⟩
  rw [List.append_assoc, List.cons_append, List.append_assoc]
  exact .argument he.derives hcomma hes.derives

theorem negate_isDerived {e : Expr} (he : (Phrase.level minusLevel e).IsDerived t after) :
    (Phrase.level minusLevel (.negate e)).IsDerived ('-' :: t) after :=
  isDerived_of_derives id (.negate (symbol_reads_text (by decide)) he.derives)

theorem operator_begins_text (operator : Operator) (tail : List Char) :
    operator.lexeme.Begins (operator.lexeme.text ++ ' ' :: tail) (' ' :: tail) := by
  refine ⟨operator.lexeme_valid, rfl, ?_⟩
  rcases operator.lexeme_cases with ⟨word, hword, hlexeme⟩ | ⟨word, -, hlexeme⟩
  · have hsymbol : ∀ word ∈ Operator.symbols, Lexeme.extends? word ' ' = false := by decide
    rw [hlexeme]
    exact (stopsAt_cons _ _ _).mpr (hsymbol word hword)
  · rw [hlexeme]
    exact ⟨stopsAt_isNameChar_cons (by decide),
      not_beginsLocalPart_cons (by decide)⟩

theorem skipBlanks_operator (operator : Operator) (tail : List Char) :
    skipBlanks (' ' :: operator.lexeme.text ++ tail) = operator.lexeme.text ++ tail := by
  cases operator with
  | comparison relation => cases relation <;> rfl
  | arithmetic operation => cases operation <;> rfl
  | _ => rfl

theorem binary_isDerived {operator : Operator} {left right : Expr}
    (hleft : (Phrase.level operator.level left).IsDerived t
      (' ' :: operator.lexeme.text ++ ' ' :: (ts ++ after)))
    (hright : (Phrase.level (operator.level - 1) right).IsDerived ts after) :
    (Phrase.level operator.level (.binary operator left right)).IsDerived
      (t ++ ' ' :: operator.lexeme.text ++ ' ' :: ts) after := by
  have hoperator := (operator_begins_text operator (ts ++ after)).reads
  rw [← skipBlanks_operator] at hoperator
  refine isDerived_of_derives id ?_
  rw [List.append_assoc, List.append_assoc]
  exact .binary (hleft.text id) hoperator hright.derives

theorem Derives.of_le {layout : Layout} {m n : Nat} {e : Expr} {cs rest : List Char}
    (h : Derives layout (.level m e) cs rest) (hmn : m ≤ n) (hn : n ≤ loosest) :
    Derives layout (.level n e) cs rest := by
  induction n, hmn using Nat.le_induction with
  | base => exact h
  | succ n _ ih => exact .looser (ih (Nat.le_of_lt hn)) hn

theorem looser_isDerived {m n : Nat} {e : Expr} (h : (Phrase.level m e).IsDerived t after)
    (hmn : m ≤ n) (hn : n ≤ loosest) : (Phrase.level n e).IsDerived t after :=
  isDerived_of_derives id ((h.text id).of_le hmn hn)

theorem parentheses_isDerived {n : Nat} {e : Expr} (hn : n ≤ loosest)
    (he : (Phrase.level loosest e).IsDerived t (')' :: after)) :
    (Phrase.level n e).IsDerived ('(' :: t ++ [')']) after :=
  looser_isDerived (operand_isDerived (parenthesized_isDerived he)) (Nat.zero_le n) hn

theorem Written.predicates_closed {short final : Bool} {es : List Expr}
    (h : Written short final (.predicates es) ts) (hafter : Closed " )],/[" after) :
    Closed " )],/[" (ts ++ after) := by
  cases h with
  | noPredicates => exact hafter
  | predicate he hes => exact closed_cons (by decide) (by decide) (by decide)

theorem closed_operator (operator : Operator) (tail : List Char) :
    Closed " )]," (' ' :: operator.lexeme.text ++ tail) := by
  have hhead : ∃ c, (operator.lexeme.text ++ tail).head? = some c ∧ c ≠ '@' := by
    cases operator with
    | comparison relation => cases relation <;> exact ⟨_, rfl, by decide⟩
    | arithmetic operation => cases operation <;> exact ⟨_, rfl, by decide⟩
    | _ => exact ⟨_, rfl, by decide⟩
  obtain ⟨c, hc, hat⟩ := hhead
  refine ⟨?_, ?_⟩
  · rintro d ⟨⟩
    decide
  · rw [skipBlanks_operator, hc]
    exact fun h => hat (Option.some.inj h)

/-- A phrase is derived from its text, whatever comes after it, by induction on how it is
written. What closes the phrase closes its last part; the other parts are followed by a
symbol of the phrase. -/
theorem Written.isDerived {short final : Bool} {phrase : Phrase}
    (h : Written short final phrase t) (hafter : Closed phrase.closers after)
    (hend : after = [] → final = true) : phrase.IsDerived t after := by
  have hinner : ∀ {c : Char} {cs : List Char} {final : Bool}, c :: cs = [] → final = true :=
    nofun
  induction h generalizing after with
  | wildcard => exact isDerived_of_derives id (.wildcard (symbol_reads_text (by decide)))
  | nameTest hvalid => exact nameTest_isDerived hvalid hafter
  | @namespaceTest _ nsPrefix hvalid =>
    exact isDerived_of_derives id (.namespaceTest ⟨after, ⟨hvalid, rfl, trivial⟩, rfl⟩)
  | typeTest htest => exact typeTest_isDerived htest
  | instructionTest hvalid => exact instructionTest_isDerived hvalid
  | axisHead haxis _ ih => exact axisHead_isDerived haxis (ih hafter hend)
  | childHead _ _ ih => exact childHead_isDerived (ih hafter hend)
  | attributeHead _ _ ih => exact attributeHead_isDerived (ih hafter hend)
  | selfHead => exact selfHead_isDerived hafter
  | parentHead => exact parentHead_isDerived
  | step _ hes ihHead ih =>
    refine step_isDerived (ihHead (hes.predicates_closed hafter) ?_) (ih hafter hend)
    exact fun h => hend (List.append_eq_nil_iff.mp h).2
  | noPredicates => exact noPredicates_isDerived
  | predicate _ _ ih ihMore =>
    exact predicate_isDerived (ih closed_bracket hinner) (ihMore hafter hend)
  | firstStep _ ih => exact firstStep_isDerived (ih hafter hend)
  | nextStep _ _ ihSteps ih =>
    exact nextStep_isDerived (ihSteps closed_slash hinner) (ih hafter hend)
  | nextDescendantStep _ _ _ ihSteps ih =>
    exact nextDescendantStep_isDerived (ihSteps closed_slash hinner) (ih hafter hend)
  | root => exact root_isDerived hafter
  | rootSteps _ ih => exact rootSteps_isDerived (ih hafter.of_level hend)
  | rootDescendantSteps _ _ ih => exact rootDescendantSteps_isDerived (ih hafter.of_level hend)
  | contextSteps _ ih => exact contextSteps_isDerived (ih hafter.of_level hend)
  | startSteps _ _ ihStart ih =>
    have h := filterSteps_isDerived
      (unfiltered_isDerived (parenthesized_isDerived (ihStart closed_parenthesis hinner)))
      (ih hafter.of_level hend)
    rwa [List.append_assoc] at h
  | startDescendantSteps _ _ _ ihStart ih =>
    have h := filterDescendantSteps_isDerived
      (unfiltered_isDerived (parenthesized_isDerived (ihStart closed_parenthesis hinner)))
      (ih hafter.of_level hend)
    rwa [List.append_assoc] at h
  | literal hvalid => exact operand_isDerived (literal_isDerived hvalid)
  | number hvalid hfinal =>
    exact operand_isDerived (number_isDerived hvalid hafter.of_level fun h => hfinal (hend h))
  | call hvalid hfunction _ ih =>
    exact operand_isDerived (call_isDerived hvalid hfunction (ih closed_arguments hinner))
  | noArguments => exact noArguments_isDerived
  | lastArgument _ ih => exact lastArgument_isDerived (ih hafter.of_arguments hend)
  | argument _ _ ih ihMore =>
    have hblank : ∀ c ∈ [' '], Character.isBlank c = true := forall_mem_of_all (by decide)
    exact argument_isDerived hblank (ih closed_comma hinner) (ihMore hafter hend)
  | filter _ _ ihBase ih =>
    have h := filtered_isDerived (parenthesized_isDerived (ihBase closed_parenthesis hinner))
      (ih hafter.of_level hend)
    rw [List.append_assoc] at h
    exact filterPath_isDerived h
  | negate _ ih => exact negate_isDerived (ih hafter hend)
  | binary _ _ ihLeft ih =>
    exact binary_isDerived (ihLeft (closed_operator _ _) hinner) (ih hafter hend)
  | looser hlooser hn _ ih => exact looser_isDerived (ih hafter hend) (Nat.le_of_lt hlooser) hn
  | @parentheses _ _ e _ htighter _ ih =>
    exact parentheses_isDerived (Nat.le_trans (Nat.le_of_lt htighter) e.level_le)
      (ih closed_parenthesis hinner)

end phrases

end Grammar

end XPathQuery
