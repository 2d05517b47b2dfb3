import XPathQuery.Proofs.AbbreviatedExpressions

/-!
Abbreviations mean what they abbreviate. A text with abbreviations at any places is parsed,
and as the same expression as the full text. That is the expression that both texts stand
for, unless a numeral at their end is cut short, and then it is cut short in both.
-/
namespace XPathQuery

open Token Grammar

namespace Grammar

def Phrase.EndsFirmly : Phrase → Prop
  | .head _ _ | .step _ | .predicates _ | .steps _ => True
  | _ => False

namespace Abbreviates

variable {phrase : Phrase} {full t after : List Char}

theorem predicates_closed {es : List Expr} (h : Abbreviates (.predicates es) full t)
    (hafter : Closed " )],/[" after) : Closed " )],/[" (t ++ after) := by
  cases h with
  | noPredicates => exact hafter
  | predicate he hes => exact closed_cons (by decide) (by decide) (by decide)

theorem predicates_append_ne_nil {e : Expr} {es : List Expr}
    (h : Abbreviates (.predicates (e :: es)) full t) : t ++ after ≠ [] := by
  cases h with
  | predicate he hes => exact List.cons_ne_nil _ _

/-- A phrase is derived from a text that abbreviates its full text, by induction on the
phrase. What closes the phrase closes its last part; the other parts are followed by a symbol
of the phrase. A numeral has to be followed by something. -/
theorem isDerived (h : Abbreviates phrase full t) (hafter : Closed phrase.closers after)
    (hend : after = [] → phrase.EndsFirmly) : phrase.IsDerived t after := by
  have hinner : ∀ {c : Char} {cs : List Char} {phrase : Phrase},
      c :: cs = [] → phrase.EndsFirmly := nofun
  induction h generalizing after with
  | axisHead haxis htest =>
    exact axisHead_isDerived haxis (htest.isDerived hafter fun _ => rfl)
  | childHead htest => exact childHead_isDerived (htest.isDerived hafter fun _ => rfl)
  | attributeHead htest => exact attributeHead_isDerived (htest.isDerived hafter fun _ => rfl)
  | selfHead => exact selfHead_isDerived hafter
  | parentHead => exact parentHead_isDerived
  | step _ hes ihHead ih =>
    exact step_isDerived (ihHead (hes.predicates_closed hafter) fun _ => trivial)
      (ih hafter fun _ => trivial)
  | noPredicates => exact noPredicates_isDerived
  | predicate _ _ ih ihMore =>
    exact predicate_isDerived (ih closed_bracket hinner) (ihMore hafter fun _ => trivial)
  | firstStep _ ih => exact firstStep_isDerived (ih hafter fun _ => trivial)
  | nextStep _ _ ihSteps ih =>
    exact nextStep_isDerived (ihSteps closed_slash hinner) (ih hafter fun _ => trivial)
  | nextDescendantStep _ _ ihSteps ih =>
    exact nextDescendantStep_isDerived (ihSteps closed_slash hinner) (ih hafter fun _ => trivial)
  | literal hvalid => exact literal_isDerived hvalid
  | number hvalid => exact number_isDerived hvalid hafter fun h => (hend h).elim
  | parentheses _ ih => exact parenthesized_isDerived (ih closed_parenthesis hinner)
  | call hvalid hfunction _ ih =>
    exact call_isDerived hvalid hfunction (ih closed_arguments hinner)
  | noArguments => exact noArguments_isDerived
  | lastArgument _ ih => exact lastArgument_isDerived (ih hafter.of_arguments hend)
  | argument _ hblanks _ ih ihMore =>
    exact argument_isDerived hblanks (ih closed_comma hinner) (ihMore hafter hend)
  | unfiltered _ ih => exact unfiltered_isDerived (ih hafter hend)
  | filtered _ hes ihBase ih =>
    have hbase := ihBase (hes.predicates_closed hafter) (absurd · hes.predicates_append_ne_nil)
    exact filtered_isDerived hbase (ih hafter fun _ => trivial)
  | root => exact root_isDerived hafter
  | rootSteps _ ih => exact rootSteps_isDerived (ih hafter.of_level fun _ => trivial)
  | rootDescendantSteps _ ih =>
    exact rootDescendantSteps_isDerived (ih hafter.of_level fun _ => trivial)
  | contextSteps _ ih => exact contextSteps_isDerived (ih hafter.of_level fun _ => trivial)
  | filterPath _ ih => exact filterPath_isDerived (ih hafter.of_level hend)
  | filterSteps _ _ ihStart ih =>
    exact filterSteps_isDerived (ihStart closed_slash hinner) (ih hafter.of_level fun _ => trivial)
  | filterDescendantSteps _ _ ihStart ih =>
    exact filterDescendantSteps_isDerived (ihStart closed_slash hinner)
      (ih hafter.of_level fun _ => trivial)
  | looser _ hn ih => exact looser_isDerived (ih hafter hend) (Nat.le_succ _) hn
  | negate _ ih => exact negate_isDerived (ih hafter hend)
  | binary _ _ ihLeft ih =>
    exact binary_isDerived (ihLeft (closed_operator _ _) hinner) (ih hafter hend)

theorem filter_isDerived {base e : Expr} {es : List Expr} {fulls ts : List Char}
    (hbase : Abbreviates (.primary base) full t)
    (hes : Abbreviates (.predicates (e :: es)) fulls ts) (hafter : Closed " )],/[" after) :
    (Phrase.filter (.filter base (e :: es))).IsDerived (t ++ ts) after := by
  have hbase := hbase.isDerived (hes.predicates_closed hafter)
    (absurd · hes.predicates_append_ne_nil)
  exact filtered_isDerived hbase (hes.isDerived hafter fun _ => trivial)

/-- Where a parenthesis follows, no numeral ends the text. -/
theorem isDerived_before_parenthesis (h : Abbreviates phrase full t) :
    phrase.IsDerived t [')'] := h.isDerived phrase.closed_parenthesis nofun

/-- The text of a phrase ends as the text of its last part does. -/
theorem endsVisibly (h : Abbreviates phrase full t) (hphrase : phrase.brackets = 0) :
    EndsVisibly t := by
  induction h with
  | selfHead | parentHead | root => exact endsVisibly_of_forall (forall_mem_of_all (by decide))
  | axisHead _ htest => exact ((htest.endsVisibly rfl).cons (by decide)).append_cons (by decide)
  | childHead htest => exact htest.endsVisibly rfl
  | attributeHead htest => exact (htest.endsVisibly rfl).cons (by decide)
  | literal hvalid => exact hvalid.endsVisibly
  | number hvalid => exact hvalid.endsVisibly
  | call | parentheses => exact endsVisibly_nil.append_cons (by decide)
  | firstStep _ ih | contextSteps _ ih | unfiltered _ ih | filterPath _ ih | looser _ _ ih =>
    exact ih hphrase
  | rootSteps _ ih | negate _ ih => exact (ih rfl).cons (by decide)
  | rootDescendantSteps _ ih => exact ((ih rfl).cons (by decide)).cons (by decide)
  | step _ _ ihHead ih => exact (ihHead rfl).append (ih rfl)
  | filtered _ _ ihBase ih => exact (ihBase rfl).append (ih rfl)
  | noPredicates => exact endsVisibly_nil
  | predicate _ _ _ ih | nextStep _ _ _ ih | filterSteps _ _ _ ih =>
    exact (ih rfl).append_cons (by decide)
  | nextDescendantStep _ _ _ ih | filterDescendantSteps _ _ _ ih =>
    exact ((ih rfl).cons (by decide)).append_cons (by decide)
  | noArguments | lastArgument | argument => cases hphrase
  | binary _ hright _ ih =>
    rw [List.append_cons]
    exact (ih rfl).append_of_ne_nil (hright.isDerived_before_parenthesis.text_ne_nil id)

theorem wellFormed {n : Nat} {e : Expr} (h : Abbreviates (.level n e) full t) : e.WellFormed :=
  h.isDerived_before_parenthesis.derives.wellFormed

theorem trim_eq_self {n : Nat} {e : Expr} (h : Abbreviates (.level n e) full t) :
    Text.trim t = t :=
  h.isDerived_before_parenthesis.trim_eq_self (h.endsVisibly rfl)

end Abbreviates

/-- Both texts are taken as one expression: the one that they stand for, unless a numeral
with digits before its point ends them. -/
def ReadAlike (phrase : Expr → Phrase) (e : Expr) (full t : List Char) : Prop :=
  ∃ e', TakenAs phrase e' full [] ∧ TakenAs phrase e' t [] ∧ (e' = e ∨ EndsWithFraction full)

theorem readAlike_of_isDerived {phrase : Expr → Phrase} {e : Expr} {full t : List Char}
    (hphrase : ¬(phrase e).MayBeEmpty) (hfull : (phrase e).IsDerived full [])
    (ht : (phrase e).IsDerived t []) : ReadAlike phrase e full t := by
  have hderives := hfull.text hphrase
  have hderives' := ht.text hphrase
  rw [List.append_nil] at hderives hderives'
  exact ⟨e, Or.inl hderives, Or.inl hderives', Or.inl rfl⟩

/-- The numeral at the end of a text is read with its fraction or without. -/
theorem exists_number_at_end {digits : List Char} (h : IsNumeral digits) :
    ∃ value, Token.number digits = some (value, []) ∧
      (value = Double.ofDigits false digits ∨ EndsWithFraction digits) := by
  rcases number_at_end h with hread | ⟨whole, fraction, hwhole, hfraction, rfl⟩
  · exact ⟨_, hread, Or.inl rfl⟩
  · exact ⟨_, number_of_cut hwhole hfraction,
      Or.inr ⟨whole, fraction, hwhole, hfraction, List.suffix_refl _⟩⟩

theorem ReadAlike.map {phrase phrase' : Expr → Phrase} {e : Expr} {full t : List Char}
    (h : ReadAlike phrase e full t)
    (hrule : ∀ {e cs}, Derives .tight (phrase e) cs [] → Derives .tight (phrase' e) cs [])
    (hcut : ∀ {e cs}, DerivesCut phrase e cs → DerivesCut phrase' e cs) :
    ReadAlike phrase' e full t := by
  obtain ⟨e', hfull, ht, he⟩ := h
  exact ⟨e', hfull.map hrule hcut, ht.map hrule hcut, he⟩

theorem TakenAs.skipBlanks_eq_self {phrase : Expr → Phrase} {e : Expr} {cs rest : List Char}
    (h : TakenAs phrase e cs rest) (hphrase : ∀ e, ¬(phrase e).MayBeEmpty) :
    skipBlanks cs = cs := by
  obtain ⟨e', hderives⟩ := h.exists_free
  exact hderives.skipBlanks_eq_self (hphrase e')

theorem negate_takenAs {e : Expr} {t : List Char} (h : TakenAs (.level minusLevel) e t []) :
    TakenAs (.level minusLevel) (.negate e) ('-' :: t) [] := by
  have hminus : (Lexeme.symbol "-").Reads ('-' :: t) (skipBlanks t) :=
    symbol_reads_text (by decide)
  rw [h.skipBlanks_eq_self fun _ => id] at hminus
  exact .negate hminus h

theorem binary_takenAs {operator : Operator} {left right : Expr} {t ts : List Char}
    (hleft : (Phrase.level operator.level left).IsDerived t
      (' ' :: operator.lexeme.text ++ ' ' :: ts))
    (hright : TakenAs (.level (operator.level - 1)) right ts []) :
    TakenAs (.level operator.level) (.binary operator left right)
      (t ++ ' ' :: operator.lexeme.text ++ ' ' :: ts) [] := by
  have hoperator := (operator_begins_text operator ts).reads
  have hskip : skipBlanks (' ' :: ts) = ts := hright.skipBlanks_eq_self fun _ => id
  rw [← skipBlanks_operator, hskip] at hoperator
  rw [List.append_assoc]
  exact .binary (hleft.text id) hoperator hright

def Phrase.ReadAlike : Phrase → List Char → List Char → Prop
  | .primary e => Grammar.ReadAlike .primary e
  | .filter e => Grammar.ReadAlike .filter e
  | .level n e => Grammar.ReadAlike (.level n) e
  | _ => fun _ _ => True

/-- A text without abbreviations and one with them are read alike, by induction on the part of
the phrase that ends both. -/
theorem Abbreviates.readAlike {phrase : Phrase} {full t : List Char}
    (h : Abbreviates phrase full t) : phrase.ReadAlike full t := by
  have hinner : ∀ {c : Char} {cs : List Char} {phrase : Phrase},
      c :: cs = [] → phrase.EndsFirmly := nofun
  have hfirm : ∀ {phrase : Phrase} {full t : List Char}, Abbreviates phrase full t →
      phrase.EndsFirmly → phrase.IsDerived t [] :=
    fun h hphrase => h.isDerived closed_nil fun _ => hphrase
  induction h with
  | literal hvalid =>
    exact readAlike_of_isDerived id (literal_isDerived hvalid) (literal_isDerived hvalid)
  | number hvalid =>
    obtain ⟨value, hread, hvalue⟩ := exists_number_at_end hvalid
    exact ⟨.number value, number_takenAs hread, number_takenAs hread,
      hvalue.imp_left (congrArg Expr.number)⟩
  | parentheses he =>
    exact readAlike_of_isDerived id
      (parenthesized_isDerived (he.full_self.isDerived closed_parenthesis hinner))
      (parenthesized_isDerived (he.isDerived closed_parenthesis hinner))
  | call hvalid hfunction hes =>
    exact readAlike_of_isDerived id
      (call_isDerived hvalid hfunction (hes.full_self.isDerived closed_arguments hinner))
      (call_isDerived hvalid hfunction (hes.isDerived closed_arguments hinner))
  | unfiltered _ ih => exact ih.map .unfiltered .unfiltered
  | filtered hbase hes =>
    exact readAlike_of_isDerived id (hbase.full_self.filter_isDerived hes.full_self closed_nil)
      (hbase.filter_isDerived hes closed_nil)
  | root => exact readAlike_of_isDerived id (root_isDerived closed_nil) (root_isDerived closed_nil)
  | rootSteps hsteps =>
    exact readAlike_of_isDerived id (rootSteps_isDerived (hfirm hsteps.full_self trivial))
      (rootSteps_isDerived (hfirm hsteps trivial))
  | rootDescendantSteps hsteps =>
    have hfull := descendantStep.cons_steps hsteps.full_self
    exact readAlike_of_isDerived id (rootSteps_isDerived (hfirm hfull trivial))
      (rootDescendantSteps_isDerived (hfirm hsteps trivial))
  | contextSteps hsteps =>
    exact readAlike_of_isDerived id (contextSteps_isDerived (hfirm hsteps.full_self trivial))
      (contextSteps_isDerived (hfirm hsteps trivial))
  | filterPath _ ih => exact ih.map .filterPath .filterPath
  | filterSteps hstart hsteps =>
    exact readAlike_of_isDerived id
      (filterSteps_isDerived (hstart.full_self.isDerived closed_slash hinner)
        (hfirm hsteps.full_self trivial))
      (filterSteps_isDerived (hstart.isDerived closed_slash hinner) (hfirm hsteps trivial))
  | filterDescendantSteps hstart hsteps =>
    have hfull := filterSteps_isDerived (hstart.full_self.isDerived closed_slash hinner)
      (hfirm (descendantStep.cons_steps hsteps.full_self) trivial)
    rw [← List.cons_append, ← List.append_assoc] at hfull
    exact readAlike_of_isDerived id hfull (filterDescendantSteps_isDerived
      (hstart.isDerived closed_slash hinner) (hfirm hsteps trivial))
  | looser _ hn ih => exact ih.map (.looser · hn) (.looser · hn)
  | negate _ ih =>
    obtain ⟨e', hfull, ht, he⟩ := ih
    exact ⟨.negate e', negate_takenAs hfull, negate_takenAs ht,
      he.imp (congrArg Expr.negate) fun hend => hend.append ['-']⟩
  | binary hleft _ _ ih =>
    obtain ⟨e', hfull, ht, he⟩ := ih
    exact ⟨.binary _ _ e',
      binary_takenAs (hleft.full_self.isDerived (closed_operator _ _) hinner) hfull,
      binary_takenAs (hleft.isDerived (closed_operator _ _) hinner) ht,
      he.imp (congrArg _) fun hend => (hend.append [' ']).append _⟩
  | _ => trivial

end Grammar

/-- A well-formed expression has full texts, the one with as few parentheses as possible among
them. Whatever is abbreviated in a full text, it is parsed, and as the same expression as the
full text: the one that it stands for, unless a numeral with a point ends the text. -/
theorem Expr.parse_abbreviated (e : Expr) (he : e.WellFormed) :
    (∃ full, Written false false (.level loosest e) full) ∧
      (∀ full, Written false false (.level loosest e) full →
        Abbreviates (.level loosest e) full full) ∧
      ∀ full t, Abbreviates (.level loosest e) full t →
        ∃ e', Expr.parse (String.ofList full) = .ok e' ∧ Expr.parse (String.ofList t) = .ok e' ∧
          (e' = e ∨ EndsWithFraction full) := by
  refine ⟨exists_written_operand (Nat.le_refl _) (exists_written he), ?_, ?_⟩
  · intro full h
    exact h.abbreviates_self nofun
  · intro full t h
    have hparse : ∀ {full t e'}, Abbreviates (.level loosest e) full t →
        TakenAs (.level loosest) e' t [] → Expr.parse (String.ofList t) = .ok e' := by
      intro full t e' h htaken
      apply Expr.parse_of_takenAs
      rwa [String.toList_ofList, h.trim_eq_self]
    obtain ⟨e', hfull, ht, he'⟩ := h.readAlike
    exact ⟨e', hparse h.full_self hfull, hparse h ht, he'⟩

/-- All five abbreviations, around names that are operators elsewhere. -/
theorem Expr.parse_abbreviated_operatorNames :
    let inner : Expr := .path .context [.step .attribute (.name none "or" none) []]
    let left : Expr := .path .root [Step.descendantOrSelf,
      .step .child (.name none "div" none) [inner], .step .parent .node []]
    let e : Expr := .binary (.arithmetic .divide) left (.path .context [.step .self .node []])
    let full : String :=
      "/descendant-or-self::node()/child::div[attribute::or]/parent::node() div self::node()"
    e.WellFormed ∧ Abbreviates (.level loosest e) full.toList "//div[@or]/.. div .".toList ∧
      Expr.parse full = .ok e ∧ Expr.parse "//div[@or]/.. div ." = .ok e := by
  intro inner left e full
  have hor : (Lexeme.name none "or".toList).Valid := ⟨nofun, by decide +kernel⟩
  have hdiv : (Lexeme.name none "div".toList).Valid := ⟨nofun, by decide +kernel⟩
  have hinner : Abbreviates (.level loosest inner) "attribute::or".toList "@or".toList :=
    (Abbreviates.contextSteps (.firstStep (.step (.attributeHead (.nameTest hor))
      .noPredicates))).of_le (by decide) (by decide)
  have hsteps : Abbreviates (.steps [.step .child (.name none "div" none) [inner],
      .step .parent .node []]) "child::div[attribute::or]/parent::node()".toList
      "div[@or]/..".toList :=
    .nextStep (.firstStep (.step (.childHead (.nameTest hdiv)) (.predicate hinner .noPredicates)))
      (.step .parentHead .noPredicates)
  have hleft : Abbreviates (.level (Operator.arithmetic .divide).level left)
      ('/' :: descendantText ++ '/' :: "child::div[attribute::or]/parent::node()".toList)
      ('/' :: '/' :: "div[@or]/..".toList) :=
    (Abbreviates.rootDescendantSteps hsteps).of_le (by decide) (by decide)
  have hright : Abbreviates (.level ((Operator.arithmetic .divide).level - 1)
      (.path .context [.step .self .node []])) "self::node()".toList ".".toList :=
    (Abbreviates.contextSteps (.firstStep (.step .selfHead .noPredicates))).of_le (by decide)
      (by decide)
  have h := (hleft.binary hright).of_le (Operator.level_le _) (Nat.le_refl loosest)
  have hfullText : '/' :: descendantText ++ '/' ::
      "child::div[attribute::or]/parent::node()".toList ++ ' ' ::
      (Operator.arithmetic .divide).lexeme.text ++ ' ' :: "self::node()".toList =
      full.toList := by decide +kernel
  have hshortText : '/' :: '/' :: "div[@or]/..".toList ++ ' ' ::
      (Operator.arithmetic .divide).lexeme.text ++ ' ' :: ".".toList =
      "//div[@or]/.. div .".toList := by decide +kernel
  rw [hfullText, hshortText] at h
  have hend : ¬EndsWithFraction full.toList := by
    rintro ⟨whole, fraction, -, -, hsuffix⟩
    have hpoint : '.' ∈ full.toList := hsuffix.subset (by simp)
    exact absurd hpoint (by decide)
  obtain ⟨-, -, hparsed⟩ := Expr.parse_abbreviated e h.wellFormed
  obtain ⟨e', hfull, ht, he'⟩ := hparsed _ _ h
  rw [he'.resolve_right hend, String.ofList_toList] at hfull ht
  exact ⟨h.wellFormed, h, hfull, ht⟩

end XPathQuery
