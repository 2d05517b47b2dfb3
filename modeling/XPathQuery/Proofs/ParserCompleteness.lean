import XPathQuery.Proofs.RemainingText
import XPathQuery.Proofs.StepCompleteness

/-!
What the grammar derives from the whole of a text is parsed as it is derived, if the text
is laid out as the readers take it.
-/
namespace XPathQuery

open Token

namespace Grammar

section primaries

variable {nested : Reader Expr} {cs rest : List Char}

theorem number_eq_none {c : Char} (hcs : cs.head? = some c) (hdigit : c.isDigit = false)
    (hpoint : c ≠ '.') : Token.number cs = none := by
  obtain ⟨tail, rfl⟩ := List.head?_eq_some_iff.mp hcs
  have hdigits : Token.digits (c :: tail) = none := by
    simp [Token.digits, hdigit, hpoint]
  rw [Token.number, hdigits, Option.map_none]

theorem number_eq_none_of_name {qname : Option (List Char) × List Char} {after : List Char}
    (hname : qualifiedName cs = some (qname, after)) : Token.number cs = none := by
  obtain ⟨c, tail, rfl, hc⟩ := isNameStart_of_qualifiedName hname
  refine number_eq_none rfl ?_ ?_
  · rw [Bool.eq_false_iff]
    intro hdigit
    cases hc.symm.trans (isNameStart_eq_false_of_isDigit hdigit)
  · rintro rfl
    cases hc.symm.trans (isNameStart_eq_false_of_mem _ (by decide))

theorem literal_eq_none {c : Char} (hcs : cs.head? = some c) (hsingle : c ≠ '\'')
    (hdouble : c ≠ '"') : literal cs = none := by
  obtain ⟨tail, rfl⟩ := List.head?_eq_some_iff.mp hcs
  simp [literal, hsingle, hdouble]

theorem literal_eq_none_of_name {qname : Option (List Char) × List Char} {after : List Char}
    (hname : qualifiedName cs = some (qname, after)) : literal cs = none := by
  obtain ⟨c, tail, rfl, hc⟩ := isNameStart_of_qualifiedName hname
  have hne : ∀ {d}, isNameStart d = false → c ≠ d := by
    rintro d hd rfl
    cases hc.symm.trans hd
  exact literal_eq_none rfl (hne (isNameStart_eq_false_of_mem _ (by decide)))
    (hne (isNameStart_eq_false_of_mem _ (by decide)))

theorem call_eq_none {qname : Option (List Char) × List Char} {after : List Char}
    (hname : qualifiedName cs = some (qname, after))
    (hcall : (skipBlanks after).head? = some '(' → qualifiedText qname ∈ nodeTypeNames) :
    call nested cs = none := by
  rw [call, hname]
  dsimp only
  split
  · rfl
  · rename_i inside hopen
    have htype := hcall (by rw [(symbol_eq_some_iff _ _ _).mp hopen]; rfl)
    simp [htype]

theorem unspacedPrimary_eq_none_of_name {qname : Option (List Char) × List Char}
    {after : List Char} (hname : qualifiedName cs = some (qname, after))
    (hcall : (skipBlanks after).head? = some '(' → qualifiedText qname ∈ nodeTypeNames) :
    unspacedPrimary nested cs = none := by
  have hnumber := number_eq_none_of_name hname
  have hliteral := literal_eq_none_of_name hname
  have hopen : spaced "(" cs = none := by
    refine spaced_eq_none rfl ?_
    rw [skipBlanks_of_qualifiedName hname]
    exact head?_ne_punctuation hname (by decide)
  simp [unspacedPrimary, hnumber, hliteral, call_eq_none hname hcall, parenthesized, hopen]

theorem call_eq_none_of_head? {c : Char} (hcs : cs.head? = some c) (hc : isNameStart c = false) :
    call nested cs = none := by
  have hname : qualifiedName cs = none := by
    rw [Option.eq_none_iff_forall_ne_some]
    rintro ⟨qname, after⟩ hname
    exact head?_ne_of_qualifiedName hname hc hcs
  rw [call, hname]

/-- No primary expression begins with a symbol that begins a step or a path. -/
theorem unspacedPrimary_eq_none_of_symbol {c : Char} (hcs : cs.head? = some c)
    (hc : c ∈ ['*', '@', '/', '.']) (hnumber : c = '.' → Token.number cs = none) :
    unspacedPrimary nested cs = none := by
  have hnone : ∀ c ∈ ['*', '@', '/', '.'], c.isDigit = false ∧ c ≠ '\'' ∧ c ≠ '"' ∧ c ≠ '(' ∧
      Character.isBlank c = false := forall_mem_of_all (by decide)
  have hstart : ['*', '@', '/', '.'] ⊆ '.' :: '-' :: punctuation := by decide
  have hname := isNameStart_eq_false_of_mem c (hstart hc)
  obtain ⟨hdigit, hsingle, hdouble, hopen, hblank⟩ := hnone c hc
  have hnumber : Token.number cs = none := by
    by_cases hpoint : c = '.'
    · exact hnumber hpoint
    · exact number_eq_none hcs hdigit hpoint
  have hspaced : spaced "(" cs = none := by
    refine spaced_eq_none rfl ?_
    rw [skipBlanks_of_head? hcs hblank, hcs]
    exact fun h => hopen (Option.some.inj h)
  simp [unspacedPrimary, hnumber, literal_eq_none hcs hsingle hdouble,
    call_eq_none_of_head? hcs hname, parenthesized, hspaced]

theorem unspacedPrimary_eq_none_of_slash (hcs : cs.head? = some '/') :
    unspacedPrimary nested cs = none :=
  unspacedPrimary_eq_none_of_symbol hcs (by decide) fun h => absurd h (by decide)

theorem number_eq_none_of_point {after : List Char} (h : StopsAt Char.isDigit after) :
    Token.number ('.' :: after) = none := by
  have hdigits : Token.digits ('.' :: after) = none := by
    obtain ⟨htake, -⟩ := span_exact Char.isDigit [] after nofun h
    rw [List.nil_append] at htake
    simp [Token.digits, htake]
  rw [Token.number, hdigits, Option.map_none]

/-- Where a step begins, no primary expression does. -/
theorem Derives.head_not_primary {layout : Layout} {axis : Axis} {test : NodeTest}
    (h : Derives layout (.head axis test) cs rest) (hrest : Apart "(:" rest) :
    unspacedPrimary nested cs = none := by
  cases h with
  | axisHead _ hname hcolons =>
    obtain ⟨after, hbegins, rfl⟩ := hname
    obtain ⟨tail, ⟨-, htext, -⟩, -⟩ := hcolons
    refine unspacedPrimary_eq_none_of_name (qualifiedName_of_begins hbegins) ?_
    rw [htext]
    exact nofun
  | attributeHead hat =>
    obtain ⟨after, ⟨-, rfl, -⟩, -⟩ := hat
    exact unspacedPrimary_eq_none_of_symbol (c := '@') rfl (by decide) nofun
  | childHead h =>
    rcases h.test_begins hrest with hstar | ⟨qname, after, hname, -, hcall⟩
    · exact unspacedPrimary_eq_none_of_symbol hstar (by decide) nofun
    · exact unspacedPrimary_eq_none_of_name hname hcall
  | selfHead h =>
    obtain ⟨after, ⟨-, rfl, hstops⟩, -⟩ := h
    refine unspacedPrimary_eq_none_of_symbol (c := '.') rfl (by decide) fun _ => ?_
    exact number_eq_none_of_point fun c hc => (Bool.or_eq_false_iff.mp (hstops c hc)).2
  | parentHead h =>
    obtain ⟨after, ⟨-, rfl, -⟩, -⟩ := h
    refine unspacedPrimary_eq_none_of_symbol (c := '.') rfl (by decide) fun _ => ?_
    exact number_eq_none_of_point ((stopsAt_cons _ _ _).mpr (by decide))

end primaries

section operators

variable {cs rest after : List Char} {operator : Operator}

def operatorStarts : Nat → List Char
  | 1 => ['|']
  | 3 => ['*', 'd', 'm']
  | 4 => ['+', '-']
  | 5 => ['<', '>']
  | 6 => ['=', '!']
  | 7 => ['a']
  | 8 => ['o']
  | _ => []

theorem le_of_mem_operatorStarts {c : Char} {n : Nat} (h : c ∈ operatorStarts n) :
    n ≤ loosest := by
  unfold operatorStarts at h
  split at h
  case h_8 => cases h
  all_goals decide

theorem keyword_eq_none {word : String} (h : symbol word cs = none) : keyword word cs = none := by
  rw [keyword, h]

theorem operatorAt_eq_none {n : Nat} (h : ∀ c ∈ operatorStarts n, cs.head? ≠ some c) :
    operatorAt n cs = none := by
  have hsymbol : ∀ {word : String} {c : Char}, word.toList.head? = some c →
      c ∈ operatorStarts n → symbol word cs = none := fun hword hc =>
    symbol_eq_none hword (h _ hc)
  have hkeyword : ∀ {word : String} {c : Char}, word.toList.head? = some c →
      c ∈ operatorStarts n → keyword word cs = none := fun hword hc =>
    keyword_eq_none (hsymbol hword hc)
  unfold operatorAt
  split
  · have hunion : symbol "|" cs = none := hsymbol rfl (by decide)
    simp [unionOperator, hunion]
  · have hstar : symbol "*" cs = none := hsymbol rfl (by decide)
    have hdiv : keyword "div" cs = none := hkeyword rfl (by decide)
    have hmod : keyword "mod" cs = none := hkeyword rfl (by decide)
    simp [productOperator, hstar, hdiv, hmod]
  · have hplus : symbol "+" cs = none := hsymbol rfl (by decide)
    have hminus : symbol "-" cs = none := hsymbol rfl (by decide)
    simp [sumOperator, hplus, hminus]
  · have hle : symbol "<=" cs = none := hsymbol rfl (by decide)
    have hge : symbol ">=" cs = none := hsymbol rfl (by decide)
    have hlt : symbol "<" cs = none := hsymbol rfl (by decide)
    have hgt : symbol ">" cs = none := hsymbol rfl (by decide)
    simp [relationOperator, hle, hge, hlt, hgt]
  · have hne : symbol "!=" cs = none := hsymbol rfl (by decide)
    have heq : symbol "=" cs = none := hsymbol rfl (by decide)
    simp [equalityOperator, hne, heq]
  · have hand : keyword "and" cs = none := hkeyword rfl (by decide)
    simp [andOperator, hand]
  · have hor : keyword "or" cs = none := hkeyword rfl (by decide)
    simp [orOperator, hor]
  · rfl

/-- An operator is read at its level, after the others tried there. -/
theorem operatorAt_of_begins (h : operator.lexeme.Begins cs after) :
    operatorAt operator.level cs = some (operator, after) := by
  have htext := h.eq_append
  cases operator with
  | union => simp [operatorAt, Operator.level, unionOperator, symbol_of_begins h]
  | and => simp [operatorAt, Operator.level, andOperator, keyword_of_begins h]
  | or => simp [operatorAt, Operator.level, orOperator, keyword_of_begins h]
  | arithmetic operation =>
    cases operation with
    | multiply => simp [operatorAt, Operator.level, productOperator, symbol_of_begins h]
    | divide =>
      have hstar : symbol "*" cs = none := by rw [htext]; rfl
      simp [operatorAt, Operator.level, productOperator, hstar, keyword_of_begins h]
    | remainder =>
      have hstar : symbol "*" cs = none := by rw [htext]; rfl
      have hdiv : keyword "div" cs = none := by rw [htext]; rfl
      simp [operatorAt, Operator.level, productOperator, hstar, hdiv, keyword_of_begins h]
    | add => simp [operatorAt, Operator.level, sumOperator, symbol_of_begins h]
    | subtract =>
      have hplus : symbol "+" cs = none := by rw [htext]; rfl
      simp [operatorAt, Operator.level, sumOperator, hplus, symbol_of_begins h]
  | comparison relation =>
    cases relation with
    | lessOrEqual => simp [operatorAt, Operator.level, relationOperator, symbol_of_begins h]
    | greaterOrEqual =>
      have hle : symbol "<=" cs = none := by rw [htext]; rfl
      simp [operatorAt, Operator.level, relationOperator, hle, symbol_of_begins h]
    | less =>
      have hle : symbol "<=" cs = none := symbol_eq_none_of_begins h (c := '=') rfl rfl
      have hge : symbol ">=" cs = none := by rw [htext]; rfl
      simp [operatorAt, Operator.level, relationOperator, hle, hge, symbol_of_begins h]
    | greater =>
      have hle : symbol "<=" cs = none := by rw [htext]; rfl
      have hge : symbol ">=" cs = none := symbol_eq_none_of_begins h (c := '=') rfl rfl
      have hlt : symbol "<" cs = none := by rw [htext]; rfl
      simp [operatorAt, Operator.level, relationOperator, hle, hge, hlt, symbol_of_begins h]
    | notEqual => simp [operatorAt, Operator.level, equalityOperator, symbol_of_begins h]
    | equal =>
      have hne : symbol "!=" cs = none := by rw [htext]; rfl
      simp [operatorAt, Operator.level, equalityOperator, hne, symbol_of_begins h]

/-- The first character of an operator tells its level. -/
theorem exists_operatorStart (operator : Operator) : ∃ c, operator.lexeme.text.head? = some c ∧
    "(:[/".toList.contains c = false ∧
      ∀ n ≤ loosest, n ≠ operator.level → c ∉ operatorStarts n := by
  cases operator with
  | union => exact ⟨_, rfl, by decide, by decide⟩
  | and => exact ⟨_, rfl, by decide, by decide⟩
  | or => exact ⟨_, rfl, by decide, by decide⟩
  | comparison relation => cases relation <;> exact ⟨_, rfl, by decide, by decide⟩
  | arithmetic operation => cases operation <;> exact ⟨_, rfl, by decide, by decide⟩

end operators

structure Follow (n : Nat) (rest : List Char) : Prop where
  apart : Apart "(:[/" rest
  noOperator : ∀ m ≤ n, operatorAt m rest = none

theorem Follow.mono {m n : Nat} {rest : List Char} (h : Follow n rest) (hm : m ≤ n) :
    Follow m rest :=
  ⟨h.apart, fun k hk => h.noOperator k (Nat.le_trans hk hm)⟩

theorem follow_nil (n : Nat) : Follow n [] :=
  ⟨stopsAt_nil _, fun _ _ => operatorAt_eq_none fun _ _ => nofun⟩

theorem follow_of_closing {n : Nat} {c : Char} {rest : List Char} (hrest : rest.head? = some c)
    (hc : c ∈ [')', ']', ',']) : Follow n rest := by
  have hstarts : ∀ c ∈ [')', ']', ','], ∀ m ≤ loosest, c ∉ operatorStarts m :=
    forall_mem_of_all (by decide)
  have hapart : ∀ c ∈ [')', ']', ','], "(:[/".toList.contains c = false :=
    forall_mem_of_all (by decide)
  refine ⟨fun d hd => ?_, fun m _ => operatorAt_eq_none fun d hd hhead => ?_⟩
  · obtain rfl := Option.some.inj (hrest.symm.trans hd)
    exact hapart c hc
  · obtain rfl := Option.some.inj (hrest.symm.trans hhead)
    exact hstarts c hc m (le_of_mem_operatorStarts hd) hd

theorem follow_of_operator {operator : Operator} {rest after : List Char}
    (h : operator.lexeme.Begins rest after) {n : Nat} (hn : n < operator.level) :
    Follow n rest := by
  obtain ⟨c, hc, hapart, hstarts⟩ := exists_operatorStart operator
  have hrest : rest.head? = some c := by
    rw [h.eq_append, List.head?_append, hc]
    rfl
  refine ⟨fun d hd => ?_, fun m hm => operatorAt_eq_none fun d hd hhead => ?_⟩
  · obtain rfl := Option.some.inj (hrest.symm.trans hd)
    exact hapart
  · obtain rfl := Option.some.inj (hrest.symm.trans hhead)
    exact hstarts m (le_of_mem_operatorStarts hd) (Nat.ne_of_lt (Nat.lt_of_le_of_lt hm hn)) hd

/-- A reader of nested expressions that takes what the grammar derives from texts up to some
length, and nothing else. -/
structure ReadsNested (nested : Reader Expr) (bound : Nat) : Prop where
  sound : Sound (.level loosest) nested
  complete : ∀ {e cs rest}, Derives .tight (.level loosest e) cs rest → cs.length < bound →
    Follow loosest rest → ∀ {cs'}, skipBlanks cs' = cs →
      ∃ rest', nested cs' = some (e, rest') ∧ skipBlanks rest' = rest

section shrinking

variable {nested : Reader Expr} {cs rest : List Char}

theorem predicate_shrinks (hnested : SoundInside nested) {e : Expr}
    (h : predicate nested cs = some (e, rest)) :
    (skipBlanks rest).length < (skipBlanks cs).length := by
  obtain ⟨cs₁, cs₂, hopen, he, hclose⟩ :=
    bracketed_derives hnested (by simp) (by simp) (predicate_eq nested ▸ h)
  rw [hclose.skipBlanks_rest]
  have hinside := he.suffix.length_le
  have hbefore := hopen.length_lt
  have hafter := hclose.length_lt
  omega

theorem furtherStep_shrinks (hnested : SoundInside nested) {steps : List Step}
    (h : furtherStep nested cs = some (steps, rest)) :
    (skipBlanks rest).length < (skipBlanks cs).length := by
  obtain ⟨s, mid, hstep, ⟨hslash, -⟩ | ⟨hslash, -⟩⟩ := furtherStep_derives hnested h
  · exact Nat.lt_of_le_of_lt hstep.suffix.length_le hslash.length_lt
  · exact Nat.lt_of_le_of_lt hstep.suffix.length_le hslash.length_lt

theorem furtherArgument_shrinks (hnested : Sound (.level loosest) nested) {e : Expr}
    (h : furtherArgument nested cs = some (e, rest)) :
    (skipBlanks rest).length < (skipBlanks cs).length := by
  obtain ⟨mid, hcomma, hread⟩ := Option.bind_eq_some_iff.mp h
  have hreads := reads_of_spaced hcomma (by decide)
  obtain ⟨e', hderives⟩ := (hnested _ _ _ hread).exists_free
  rw [hreads.skipBlanks_rest] at hderives
  exact Nat.lt_of_le_of_lt hderives.suffix.length_le hreads.length_lt

theorem operation_shrinks {n : Nat} {operand : Reader Expr} (hoperand : Sound (.level n) operand)
    {found : Operator × Expr} (h : operation (n + 1) operand cs = some (found, rest)) :
    (skipBlanks rest).length < (skipBlanks cs).length := by
  obtain ⟨mid, -, hoperator, hright⟩ := operation_reads hoperand h
  obtain ⟨e', hderives⟩ := hright.exists_free
  exact Nat.lt_of_le_of_lt hderives.suffix.length_le hoperator.length_lt

theorem sign_shrinks {u : Unit} (h : sign cs = some (u, rest)) :
    (skipBlanks rest).length < (skipBlanks cs).length := by
  have hreads := sign_reads h
  rw [hreads.skipBlanks_rest]
  exact hreads.length_lt

end shrinking

/-- How an operand of a level is read: whole, or in the parts that operators of the level
join, or that signs stand before. -/
structure LevelRead (nested : Reader Expr) (n : Nat) (e : Expr) (cs rest : List Char) : Prop where
  whole : Follow n rest → ∀ {cs'}, skipBlanks cs' = cs →
    ∃ rest', readerAt nested n cs' = some (e, rest') ∧ skipBlanks rest' = rest
  operands : ∀ {m}, n = m + 1 → m ≠ 1 → Follow m rest → ∀ {cs'}, skipBlanks cs' = cs →
    ∃ first mid more rest', readerAt nested m cs' = some (first, mid) ∧
      Chain (operation n (readerAt nested m)) mid more rest' ∧
      e = applyOperations first more ∧ skipBlanks rest' = rest
  signs : n = minusLevel → Follow 1 rest → ∀ {cs'}, skipBlanks cs' = cs →
    ∃ signs mid e' rest', Chain sign cs' signs mid ∧ sign mid = none ∧
      readerAt nested 1 mid = some (e', rest') ∧ e = applySigns signs e' ∧ skipBlanks rest' = rest

/-- What the readers do where a phrase is derived. Tests and heads need no more than their
derivation, so nothing is said of them here. -/
def Phrase.IsRead (nested : Reader Expr) : Phrase → List Char → List Char → Prop
  | .test _, _, _ | .head _ _, _, _ => True
  | .step s, cs, rest => Apart "(:[" rest → unspacedPrimary nested cs = none ∧
      ∀ {cs'}, Layout.tight.beforeStep cs' → skipBlanks cs' = cs →
        ∃ rest', Grammar.step nested cs' = some (s, rest') ∧ skipBlanks rest' = rest
  | .predicates es, cs, rest => ∀ cs', skipBlanks cs' = cs →
      ∃ rest', Chain (predicate nested) cs' es rest' ∧ skipBlanks rest' = rest
  | .steps found, cs, rest => Apart "(:[" rest → unspacedPrimary nested cs = none ∧
      ∀ {cs'}, Layout.tight.beforeStep cs' → skipBlanks cs' = cs →
        ∃ first mid more rest', Grammar.step nested cs' = some (first, mid) ∧
          Chain (furtherStep nested) mid more rest' ∧ found = first :: more.flatten ∧
          skipBlanks rest' = rest
  | .location e, cs, rest => Apart "(:[/" rest → unspacedPrimary nested cs = none ∧
      ∃ rest', Grammar.locationPath nested cs = some (e, rest') ∧ skipBlanks rest' = rest
  | .arguments es, cs, rest => rest.head? = some ')' → ∀ {cs'}, skipBlanks cs' = cs →
      ∃ rest', Grammar.arguments nested cs' = (es, rest') ∧ skipBlanks rest' = rest ∧
        ∀ first more, es = first :: more → ∃ mid, nested cs' = some (first, mid) ∧
          Chain (furtherArgument nested) mid more rest'
  | .primary e, cs, rest =>
      ∃ rest', unspacedPrimary nested cs = some (e, rest') ∧ skipBlanks rest' = rest
  | .filter e, cs, rest => Apart "[" rest → ∀ {cs'}, skipBlanks cs' = cs →
      ∃ rest', filtered nested cs' = some (e, rest') ∧ skipBlanks rest' = rest
  | .level n e, cs, rest => LevelRead nested n e cs rest

section steps

variable {nested : Reader Expr} {cs cs₁ cs₂ cs₃ rest : List Char}

theorem predicate_eq_none (h : (skipBlanks cs).head? ≠ some '[') : predicate nested cs = none := by
  rw [predicate, spaced_eq_none rfl h]

theorem furtherStep_eq_none (h : (skipBlanks cs).head? ≠ some '/') :
    furtherStep nested cs = none := by
  rw [furtherStep, spaced_eq_none rfl h, spaced_eq_none rfl h]

theorem furtherStep_of_slash {s : Step} {mid : List Char}
    (hslash : (Lexeme.symbol "/").Reads (skipBlanks cs) cs₁)
    (hstep : step nested cs₁ = some (s, mid)) : furtherStep nested cs = some ([s], mid) := by
  obtain ⟨after, hbegins, -⟩ := id hslash
  have hslashes : spaced "//" cs = none := by
    rw [spaced, symbol_eq_none_of_begins hbegins (c := '/') rfl rfl, Option.map_none]
  rw [furtherStep, hslashes, spaced_of_reads hslash]
  simp [hstep]

theorem furtherStep_of_slashes {s : Step} {mid : List Char}
    (hslashes : (Lexeme.symbol "//").Reads (skipBlanks cs) cs₁)
    (hstep : step nested cs₁ = some (s, mid)) :
    furtherStep nested cs = some ([Step.descendantOrSelf, s], mid) := by
  rw [furtherStep, spaced_of_reads hslashes]
  simp [hstep]

theorem bracketed_of_reads {bound : Nat} (hnested : ReadsNested nested bound)
    {left right : String} (hright : right ∈ [")", "]"]) {e : Expr} (hlength : cs₁.length < bound)
    (hopen : (Lexeme.symbol left).Reads (skipBlanks cs) cs₁)
    (he : Derives .tight (.level loosest e) cs₁ cs₂)
    (hclose : (Lexeme.symbol right).Reads cs₂ rest) :
    bracketed left right nested cs = some (e, rest) := by
  have hfollow : Follow loosest cs₂ := by
    obtain ⟨after, ⟨-, rfl, -⟩, -⟩ := hclose
    simp only [List.mem_cons, List.not_mem_nil, or_false] at hright
    rcases hright with rfl | rfl
    · exact follow_of_closing (c := ')') rfl (by decide)
    · exact follow_of_closing (c := ']') rfl (by decide)
  obtain ⟨after, hread, rfl⟩ := hnested.complete he hlength hfollow hopen.skipBlanks_rest
  rw [bracketed, spaced_of_reads hopen]
  simp [hread, spaced_of_reads hclose]

theorem predicates_isRead {bound : Nat} (hnested : ReadsNested nested bound) {e : Expr}
    {es : List Expr} (hlength : cs₁.length < bound) (hopen : (Lexeme.symbol "[").Reads cs cs₁)
    (he : Derives .tight (.level loosest e) cs₁ cs₂) (hclose : (Lexeme.symbol "]").Reads cs₂ cs₃)
    (ih : (Phrase.predicates es).IsRead nested cs₃ rest) :
    (Phrase.predicates (e :: es)).IsRead nested cs rest := by
  rintro cs' rfl
  obtain ⟨rest', hchain, hrest'⟩ := ih _ hclose.skipBlanks_rest
  have hread := bracketed_of_reads hnested (by simp) hlength hopen he hclose
  exact ⟨rest', .more hread hchain, hrest'⟩

/-- Predicates begin with a bracket, or there are none. -/
theorem Derives.predicates_apart {layout : Layout} {es : List Expr} {chars : String}
    (h : Derives layout (.predicates es) cs rest) (hrest : Apart chars rest)
    (hchars : '[' ∉ chars.toList) : Apart chars cs := by
  cases h with
  | noPredicates => exact hrest
  | predicate hopen =>
    obtain ⟨after, ⟨-, rfl, -⟩, -⟩ := hopen
    refine (stopsAt_cons chars.toList.contains '[' after).mpr ?_
    rwa [Bool.eq_false_iff, Ne, List.contains_iff_mem]

theorem step_isRead (hsound : SoundInside nested) {axis : Axis} {test : NodeTest} {es : List Expr}
    (hhead : Derives .tight (.head axis test) cs cs₁)
    (hes : Derives .tight (.predicates es) cs₁ rest)
    (ih : (Phrase.predicates es).IsRead nested cs₁ rest) :
    (Phrase.step (.step axis test es)).IsRead nested cs rest := by
  intro hrest
  have hapart : Apart "(:" cs₁ := hes.predicates_apart (hrest.mono (by decide)) (by decide)
  refine ⟨hhead.head_not_primary hapart, ?_⟩
  intro cs' hbefore hcs'
  obtain ⟨mid, hread, hmid⟩ := stepHead_complete hhead hapart hbefore hcs'
  obtain ⟨rest', hchain, rfl⟩ := ih mid hmid
  have hend : predicate nested rest' = none := predicate_eq_none (hrest.head?_ne (by decide))
  have hmany := many_eq_of_chain (fun _ _ _ => predicate_shrinks hsound) hchain hend
  refine ⟨rest', ?_, rfl⟩
  rw [step, hread, Option.map_some]
  dsimp only
  rw [hmany]

theorem firstStep_isRead {s : Step} (ih : (Phrase.step s).IsRead nested cs rest) :
    (Phrase.steps [s]).IsRead nested cs rest := by
  intro hrest
  obtain ⟨hprimary, hread⟩ := ih hrest
  refine ⟨hprimary, ?_⟩
  intro cs' hbefore hcs'
  obtain ⟨rest', hstep, hrest'⟩ := hread hbefore hcs'
  exact ⟨s, rest', [], rest', hstep, .done, rfl, hrest'⟩

/-- One more step after a slash or two, with the steps that these stand for. -/
theorem nextStep_isRead {steps more : List Step} {s : Step} {slash : String}
    (hslash : slash = "/" ∧ more = [s] ∨ slash = "//" ∧ more = [Step.descendantOrSelf, s])
    (hreads : (Lexeme.symbol slash).Reads cs₁ cs₂)
    (ihSteps : (Phrase.steps steps).IsRead nested cs cs₁)
    (ih : (Phrase.step s).IsRead nested cs₂ rest) :
    (Phrase.steps (steps ++ more)).IsRead nested cs rest := by
  intro hrest
  have hapart : Apart "(:[" cs₁ := by
    obtain ⟨after, ⟨-, rfl, -⟩, -⟩ := hreads
    rcases hslash with ⟨rfl, -⟩ | ⟨rfl, -⟩ <;> exact (stopsAt_cons _ _ _).mpr (by decide)
  obtain ⟨hprimary, hsteps⟩ := ihSteps hapart
  refine ⟨hprimary, ?_⟩
  intro cs' hbefore hcs'
  obtain ⟨first, mid, found, mid', hfirst, hchain, rfl, rfl⟩ := hsteps hbefore hcs'
  have hself := hreads.skipBlanks_rest
  obtain ⟨rest', hstep, hrest'⟩ := (ih hrest).2 (Or.inl hself) hself
  have hlast : furtherStep nested mid' = some (more, rest') := by
    rcases hslash with ⟨rfl, rfl⟩ | ⟨rfl, rfl⟩
    · exact furtherStep_of_slash hreads hstep
    · exact furtherStep_of_slashes hreads hstep
  refine ⟨first, mid, found ++ [more], rest', hfirst, hchain.append (.more hlast .done), ?_, hrest'⟩
  simp

theorem relativeSteps_of_isRead (hsound : SoundInside nested) {steps : List Step}
    (h : (Phrase.steps steps).IsRead nested cs rest) (hrest : Apart "(:[/" rest) {cs' : List Char}
    (hbefore : Layout.tight.beforeStep cs') (hcs' : skipBlanks cs' = cs) :
    ∃ rest', relativeSteps nested cs' = some (steps, rest') ∧ skipBlanks rest' = rest := by
  obtain ⟨first, mid, more, rest', hfirst, hchain, rfl, rfl⟩ :=
    (h (hrest.mono (by decide))).2 hbefore hcs'
  have hend : furtherStep nested rest' = none := furtherStep_eq_none (hrest.head?_ne (by decide))
  have hmany := many_eq_of_chain (fun _ _ _ => furtherStep_shrinks hsound) hchain hend
  exact ⟨rest', by simp [relativeSteps, hfirst, furtherSteps, hmany], rfl⟩

end steps

section paths

variable {nested : Reader Expr} {cs cs₁ cs₂ cs₃ rest after : List Char}

theorem root_isRead (hslash : (Lexeme.symbol "/").Begins cs after)
    (halone : Layout.tight.alone after) :
    (Phrase.location (.path .root [])).IsRead nested cs (skipBlanks after) := by
  intro _
  have hslashes : symbol "//" cs = none := symbol_eq_none_of_begins hslash (c := '/') rfl rfl
  have hsteps : relativeSteps nested after = none := by
    rw [relativeSteps, step, show stepHead after = none from halone]
    rfl
  have hprimary : unspacedPrimary nested cs = none := by
    obtain rfl := hslash.eq_append
    exact unspacedPrimary_eq_none_of_slash rfl
  refine ⟨hprimary, after, ?_, rfl⟩
  simp [locationPath, hslashes, symbol_of_begins hslash, hsteps]

theorem rootSteps_isRead (hsound : SoundInside nested) {steps : List Step}
    (hslash : (Lexeme.symbol "/").Begins cs after) (hbefore : Layout.tight.beforeStep after)
    (ih : (Phrase.steps steps).IsRead nested (skipBlanks after) rest) :
    (Phrase.location (.path .root steps)).IsRead nested cs rest := by
  intro hrest
  have hslashes : symbol "//" cs = none := symbol_eq_none_of_begins hslash (c := '/') rfl rfl
  obtain ⟨rest', hsteps, hrest'⟩ := relativeSteps_of_isRead hsound ih hrest hbefore rfl
  have hprimary : unspacedPrimary nested cs = none := by
    obtain rfl := hslash.eq_append
    exact unspacedPrimary_eq_none_of_slash rfl
  refine ⟨hprimary, rest', ?_, hrest'⟩
  simp [locationPath, hslashes, symbol_of_begins hslash, hsteps]

theorem rootDescendantSteps_isRead (hsound : SoundInside nested) {steps : List Step}
    (hslashes : (Lexeme.symbol "//").Begins cs after) (hbefore : Layout.tight.beforeStep after)
    (ih : (Phrase.steps steps).IsRead nested (skipBlanks after) rest) :
    (Phrase.location (.path .root (Step.descendantOrSelf :: steps))).IsRead nested cs rest := by
  intro hrest
  obtain ⟨rest', hsteps, hrest'⟩ := relativeSteps_of_isRead hsound ih hrest hbefore rfl
  have hprimary : unspacedPrimary nested cs = none := by
    obtain rfl := hslashes.eq_append
    exact unspacedPrimary_eq_none_of_slash rfl
  refine ⟨hprimary, rest', ?_, hrest'⟩
  simp [locationPath, symbol_of_begins hslashes, hsteps]

theorem contextSteps_isRead (hsound : SoundInside nested) {steps : List Step}
    (hsteps : Derives .tight (.steps steps) cs rest)
    (ih : (Phrase.steps steps).IsRead nested cs rest) :
    (Phrase.location (.path .context steps)).IsRead nested cs rest := by
  intro hrest
  have hself := hsteps.skipBlanks_eq_self id
  refine ⟨(ih (hrest.mono (by decide))).1, ?_⟩
  obtain ⟨rest', hread, hrest'⟩ := relativeSteps_of_isRead hsound ih hrest (Or.inl hself) hself
  have hslash : cs.head? ≠ some '/' := by
    intro hhead
    obtain ⟨tail, rfl⟩ := List.head?_eq_some_iff.mp hhead
    cases hread
  have hone : symbol "/" cs = none := symbol_eq_none rfl hslash
  have htwo : symbol "//" cs = none := symbol_eq_none rfl hslash
  exact ⟨rest', by simp [locationPath, hone, htwo, hread], hrest'⟩

theorem primary_of_isRead {e : Expr} (h : (Phrase.primary e).IsRead nested cs rest)
    {cs' : List Char} (hcs' : skipBlanks cs' = cs) : primary nested cs' = some (e, rest) := by
  obtain ⟨rest', hread, rfl⟩ := h
  rw [primary, hcs', hread, Option.map_some]

theorem unfiltered_isRead (hsound : SoundInside nested) {e : Expr}
    (ih : (Phrase.primary e).IsRead nested cs rest) :
    (Phrase.filter e).IsRead nested cs rest := by
  intro hrest cs' hcs'
  have hskip : skipBlanks rest = rest := by
    obtain ⟨rest', -, rfl⟩ := ih
    exact skipBlanks_skipBlanks rest'
  have hend : predicate nested rest = none := by
    apply predicate_eq_none
    rw [hskip]
    exact hrest.head?_ne (by decide)
  have hmany := many_eq_of_chain (fun _ _ _ => predicate_shrinks hsound) .done hend
  refine ⟨rest, ?_, hskip⟩
  simp [filtered, primary_of_isRead ih hcs', hmany]

theorem filtered_isRead (hsound : SoundInside nested) {base e : Expr} {es : List Expr}
    (ihBase : (Phrase.primary base).IsRead nested cs cs₁)
    (ih : (Phrase.predicates (e :: es)).IsRead nested cs₁ rest) :
    (Phrase.filter (.filter base (e :: es))).IsRead nested cs rest := by
  intro hrest cs' hcs'
  have hskip : skipBlanks cs₁ = cs₁ := by
    obtain ⟨rest', -, rfl⟩ := ihBase
    exact skipBlanks_skipBlanks rest'
  obtain ⟨rest', hchain, rfl⟩ := ih cs₁ hskip
  have hend : predicate nested rest' = none := predicate_eq_none (hrest.head?_ne (by decide))
  have hmany := many_eq_of_chain (fun _ _ _ => predicate_shrinks hsound) hchain hend
  refine ⟨rest', ?_, rfl⟩
  simp [filtered, primary_of_isRead ihBase hcs', hmany]

theorem locationPath_isRead {e : Expr}
    (ih : (Phrase.location e).IsRead nested cs rest) : LevelRead nested 0 e cs rest where
  whole := by
    intro hfollow cs' hcs'
    obtain ⟨hprimary, rest', hread, rfl⟩ := ih hfollow.apart
    have hfiltered : filtered nested cs' = none := by
      rw [filtered, primary, hcs', hprimary]
      rfl
    refine ⟨skipBlanks rest', ?_, skipBlanks_skipBlanks rest'⟩
    simp [readerAt, path, hfiltered, hcs', hread]
  operands := nofun
  signs := nofun

theorem filterPath_isRead (hsound : SoundInside nested) {e : Expr}
    (ih : (Phrase.filter e).IsRead nested cs rest) : LevelRead nested 0 e cs rest where
  whole := by
    intro hfollow cs' hcs'
    obtain ⟨rest', hread, rfl⟩ := ih (hfollow.apart.mono (by decide)) hcs'
    have hend : furtherStep nested rest' = none :=
      furtherStep_eq_none (hfollow.apart.head?_ne (by decide))
    have hmany := many_eq_of_chain (fun _ _ _ => furtherStep_shrinks hsound) .done hend
    exact ⟨rest', by simp [readerAt, path, hread, furtherSteps, hmany], rfl⟩
  operands := nofun
  signs := nofun

/-- Steps after a filter, with the step that two slashes before them stand for. -/
theorem filterSteps_isRead (hsound : SoundInside nested) {start : Expr} {steps all : List Step}
    {slash : String}
    (hslash : slash = "/" ∧ all = steps ∨ slash = "//" ∧ all = Step.descendantOrSelf :: steps)
    (hreads : (Lexeme.symbol slash).Reads cs₁ cs₂)
    (ihStart : (Phrase.filter start).IsRead nested cs cs₁)
    (ih : (Phrase.steps steps).IsRead nested cs₂ rest) :
    LevelRead nested 0 (.path (.expr start) all) cs rest where
  whole := by
    intro hfollow cs' hcs'
    have hapart : Apart "[" cs₁ := by
      obtain ⟨after, ⟨-, rfl, -⟩, -⟩ := hreads
      rcases hslash with ⟨rfl, -⟩ | ⟨rfl, -⟩ <;> exact (stopsAt_cons _ _ _).mpr (by decide)
    obtain ⟨mid, hstart, rfl⟩ := ihStart hapart hcs'
    obtain ⟨first, mid', more, rest', hfirst, hchain, rfl, rfl⟩ :=
      (ih (hfollow.apart.mono (by decide))).2 (Or.inl hreads.skipBlanks_rest) hreads.skipBlanks_rest
    have hend : furtherStep nested rest' = none :=
      furtherStep_eq_none (hfollow.apart.head?_ne (by decide))
    refine ⟨rest', ?_, rfl⟩
    rcases hslash with ⟨rfl, rfl⟩ | ⟨rfl, rfl⟩
    · have hnext := furtherStep_of_slash hreads hfirst
      have hmany := many_eq_of_chain (fun _ _ _ => furtherStep_shrinks hsound)
        (.more hnext hchain) hend
      simp [readerAt, path, hstart, furtherSteps, hmany]
    · have hnext := furtherStep_of_slashes hreads hfirst
      have hmany := many_eq_of_chain (fun _ _ _ => furtherStep_shrinks hsound)
        (.more hnext hchain) hend
      simp [readerAt, path, hstart, furtherSteps, hmany]
  operands := nofun
  signs := nofun

end paths

section operands

variable {nested : Reader Expr} {bound : Nat} {cs cs₁ cs₂ cs₃ rest after : List Char}

theorem literal_isRead {quote : Char} {text : List Char}
    (h : (Lexeme.literal quote text).Reads cs rest) :
    (Phrase.primary (.literal (String.ofList text))).IsRead nested cs rest := by
  obtain ⟨after, hbegins, rfl⟩ := h
  have hnumber : Token.number cs = none := by
    obtain rfl := hbegins.eq_append
    rcases hbegins.valid.1 with rfl | rfl
    · exact number_eq_none (c := '\'') rfl (by decide) (by decide)
    · exact number_eq_none (c := '"') rfl (by decide) (by decide)
  have hliteral := (literal_eq_some_iff _ _ _).mpr ⟨quote, hbegins⟩
  exact ⟨after, by simp [unspacedPrimary, hnumber, hliteral], rfl⟩

theorem number_isRead {digits : List Char} (h : (Lexeme.numeral digits).Begins cs after)
    (hlayout : Layout.tight.numeral digits after) :
    (Phrase.primary (.number (Double.ofDigits false digits))).IsRead nested cs
      (skipBlanks after) := by
  have hnumber : Token.number cs = some (Double.ofDigits false digits, after) := by
    rw [h.eq_append]
    exact hlayout
  exact ⟨after, by simp [unspacedPrimary, hnumber], rfl⟩

theorem parentheses_isRead (hnested : ReadsNested nested bound) {e : Expr}
    (hlength : cs₁.length < bound) (hopen : (Lexeme.symbol "(").Reads cs cs₁)
    (he : Derives .tight (.level loosest e) cs₁ cs₂) (hclose : (Lexeme.symbol ")").Reads cs₂ rest) :
    (Phrase.primary e).IsRead nested cs rest := by
  have hhead : cs.head? = some '(' := by
    obtain ⟨after, ⟨-, rfl, -⟩, -⟩ := hopen
    rfl
  have hself := skipBlanks_of_head? hhead (by decide)
  have hread : parenthesized nested cs = some (e, rest) :=
    bracketed_of_reads hnested (by simp) hlength (hself.symm ▸ hopen) he hclose
  have hnumber : Token.number cs = none := number_eq_none hhead (by decide) (by decide)
  have hliteral : literal cs = none := literal_eq_none hhead (by decide) (by decide)
  have hcall : call nested cs = none := 
    call_eq_none_of_head? hhead (isNameStart_eq_false_of_mem _ (by decide))
  exact ⟨rest, by simp [unspacedPrimary, hnumber, hliteral, hcall, hread], hclose.skipBlanks_rest⟩

theorem call_isRead {nsPrefix : Option (List Char)} {localPart : List Char} {es : List Expr}
    (hname : (Lexeme.name nsPrefix localPart).Reads cs cs₁)
    (hfunction : qualifiedText (nsPrefix, localPart) ∉ nodeTypeNames)
    (hopen : (Lexeme.symbol "(").Reads cs₁ cs₂)
    (ih : (Phrase.arguments es).IsRead nested cs₂ cs₃)
    (hclose : (Lexeme.symbol ")").Reads cs₃ rest) :
    (Phrase.primary (.call (qualifiedText (nsPrefix, localPart)) es)).IsRead nested cs rest := by
  obtain ⟨after, hbegins, rfl⟩ := hname
  obtain ⟨inside, hinside, rfl⟩ := hopen
  have hqname := qualifiedName_of_begins hbegins
  have hhead : cs₃.head? = some ')' := by
    obtain ⟨after, ⟨-, rfl, -⟩, -⟩ := hclose
    rfl
  obtain ⟨rest', harguments, rfl, -⟩ := ih hhead rfl
  have hcall : call nested cs = some (.call (qualifiedText (nsPrefix, localPart)) es, rest) := by
    rw [call, hqname]
    simp [symbol_of_begins hinside, hfunction, harguments, spaced_of_reads hclose]
  have hliteral := literal_eq_none_of_name hqname
  refine ⟨rest, ?_, hclose.skipBlanks_rest⟩
  simp [unspacedPrimary, number_eq_none_of_name hqname, hliteral, hcall]

theorem furtherArgument_eq_none (h : (skipBlanks cs).head? ≠ some ',') :
    furtherArgument nested cs = none := by
  rw [furtherArgument, spaced_eq_none rfl h, Option.bind_none]

/-- Where a closing parenthesis comes next, there is no argument. -/
theorem noArguments_isRead (hnested : ReadsNested nested bound) :
    (Phrase.arguments []).IsRead nested rest rest := by
  intro hclose cs' hcs'
  have hnone : nested cs' = none := by
    rw [Option.eq_none_iff_forall_ne_some]
    rintro ⟨e, rest'⟩ hread
    obtain ⟨e', hderives⟩ := (hnested.sound _ _ _ hread).exists_free
    rw [hcs'] at hderives
    exact hderives.head?_ne id (Lexeme.opensLexeme_eq_false_of_mem _ (by decide)) (by decide)
      hclose
  refine ⟨cs', ?_, hcs', nofun⟩
  rw [arguments, hnone]

theorem arguments_isRead (hnested : ReadsNested nested bound) {first : Expr} {more : List Expr}
    (h : rest.head? = some ')' → ∀ {cs'}, skipBlanks cs' = cs → ∃ mid rest',
      nested cs' = some (first, mid) ∧ Chain (furtherArgument nested) mid more rest' ∧
        skipBlanks rest' = rest) : (Phrase.arguments (first :: more)).IsRead nested cs rest := by
  intro hclose cs' hcs'
  obtain ⟨mid, rest', hfirst, hchain, rfl⟩ := h hclose hcs'
  have hend : furtherArgument nested rest' = none := by
    apply furtherArgument_eq_none
    rw [hclose]
    decide
  have hmany := many_eq_of_chain (fun _ _ _ => furtherArgument_shrinks hnested.sound) hchain hend
  refine ⟨rest', by simp [arguments_eq, hfirst, hmany], rfl, ?_⟩
  rintro first' more' ⟨⟩
  exact ⟨mid, hfirst, hchain⟩

theorem lastArgument_isRead (hnested : ReadsNested nested bound) {e : Expr}
    (hlength : cs.length < bound) (he : Derives .tight (.level loosest e) cs rest) :
    (Phrase.arguments [e]).IsRead nested cs rest := by
  refine arguments_isRead hnested fun hclose cs' hcs' => ?_
  have hfollow : Follow loosest rest := follow_of_closing hclose (by decide)
  obtain ⟨rest', hread, hrest'⟩ := hnested.complete he hlength hfollow hcs'
  exact ⟨rest', rest', hread, .done, hrest'⟩

theorem argument_isRead (hnested : ReadsNested nested bound) {e next : Expr} {es : List Expr}
    (hlength : cs.length < bound) (he : Derives .tight (.level loosest e) cs cs₁)
    (hcomma : (Lexeme.symbol ",").Reads cs₁ cs₂)
    (ih : (Phrase.arguments (next :: es)).IsRead nested cs₂ rest) :
    (Phrase.arguments (e :: next :: es)).IsRead nested cs rest := by
  refine arguments_isRead hnested fun hclose cs' hcs' => ?_
  have hfollow : Follow loosest cs₁ := by
    obtain ⟨after, ⟨-, rfl, -⟩, -⟩ := hcomma
    exact follow_of_closing (c := ',') rfl (by decide)
  obtain ⟨mid, hread, rfl⟩ := hnested.complete he hlength hfollow hcs'
  obtain ⟨rest', -, hrest', hparts⟩ := ih hclose hcomma.skipBlanks_rest
  obtain ⟨mid', hnext, hchain⟩ := hparts next es rfl
  have hfurther : furtherArgument nested mid = some (next, mid') := by
    rw [furtherArgument, spaced_of_reads hcomma]
    exact hnext
  exact ⟨mid, rest', hread, .more hfurther hchain, hrest'⟩

end operands

section levels

variable {nested : Reader Expr} {cs cs₁ cs₂ rest : List Char} {e : Expr}

theorem levelRead_of_operands {m : Nat} (hm : m ≠ 1)
    (hsound : Sound (.level m) (readerAt nested m))
    (h : Follow m rest → ∀ {cs'}, skipBlanks cs' = cs → ∃ first mid more rest',
      readerAt nested m cs' = some (first, mid) ∧
        Chain (operation (m + 1) (readerAt nested m)) mid more rest' ∧
        e = applyOperations first more ∧ skipBlanks rest' = rest) :
    LevelRead nested (m + 1) e cs rest where
  whole := by
    intro hfollow cs' hcs'
    obtain ⟨first, mid, more, rest', hfirst, hchain, rfl, rfl⟩ :=
      h (hfollow.mono (Nat.le_succ m)) hcs'
    have hend : operation (m + 1) (readerAt nested m) rest' = none := by
      rw [operation, hfollow.noOperator _ (Nat.le_refl _), Option.bind_none]
    have hmany := many_eq_of_chain (fun _ _ _ => operation_shrinks hsound) hchain hend
    refine ⟨rest', ?_, rfl⟩
    rw [readerAt_succ hm, level_eq, hfirst, Option.map_some]
    dsimp only
    rw [hmany]
  operands := by
    intro k hk _
    obtain rfl := Nat.succ.inj hk
    exact h
  signs := fun hn => absurd (Nat.succ.inj hn) hm

theorem levelRead_of_signs
    (h : Follow 1 rest → ∀ {cs'}, skipBlanks cs' = cs → ∃ signs mid e' rest',
      Chain sign cs' signs mid ∧ sign mid = none ∧ readerAt nested 1 mid = some (e', rest') ∧
        e = applySigns signs e' ∧ skipBlanks rest' = rest) :
    LevelRead nested minusLevel e cs rest where
  whole := by
    intro hfollow cs' hcs'
    obtain ⟨signs, mid, e', rest', hchain, hend, hread, rfl, rfl⟩ :=
      h (hfollow.mono (by decide)) hcs'
    have hmany := many_eq_of_chain (fun _ _ _ => sign_shrinks) hchain hend
    refine ⟨rest', ?_, rfl⟩
    rw [show readerAt nested minusLevel = negated (readerAt nested 1) from rfl, negated_eq, hmany]
    dsimp only
    rw [hread, Option.map_some]
  operands := fun hn hm => absurd (Nat.succ.inj hn).symm hm
  signs := fun _ => h

theorem sign_eq_none (h : (skipBlanks cs).head? ≠ some '-') : sign cs = none := by
  rw [sign, spaced_eq_none rfl h, Option.map_none]

theorem looser_isRead (hsound : SoundInside nested) {n : Nat} (hn : n < loosest)
    {layout : Layout} {e' : Expr} (hderives : Derives layout (.level n e') cs rest)
    (ih : LevelRead nested n e cs rest) : LevelRead nested (n + 1) e cs rest := by
  by_cases hone : n = 1
  · subst hone
    refine levelRead_of_signs fun hfollow cs' hcs' => ?_
    obtain ⟨rest', hread, hrest'⟩ := ih.whole hfollow hcs'
    have hsign : sign cs' = none := by
      apply sign_eq_none
      rw [hcs']
      obtain ⟨c, tail, rfl, hc | ⟨hsigned, -⟩⟩ := hderives.opens id
      · intro hhead
        obtain rfl := Option.some.inj hhead
        cases hc.symm.trans (Lexeme.opensLexeme_eq_false_of_mem _ (by decide))
      · exact absurd (show 2 ≤ 1 from hsigned) (by decide)
    exact ⟨[], cs', e, rest', .done, hsign, hread, rfl, hrest'⟩
  · refine levelRead_of_operands hone (readerAt_sound hsound hn.le) fun hfollow cs' hcs' => ?_
    obtain ⟨rest', hread, hrest'⟩ := ih.whole hfollow hcs'
    exact ⟨e, rest', [], rest', hread, .done, rfl, hrest'⟩

theorem negate_isRead (hminus : (Lexeme.symbol "-").Reads cs cs₁)
    (ih : LevelRead nested minusLevel e cs₁ rest) :
    LevelRead nested minusLevel (.negate e) cs rest := by
  refine levelRead_of_signs fun hfollow cs' hcs' => ?_
  obtain ⟨signs, mid, e', rest', hchain, hend, hread, rfl, hrest'⟩ :=
    ih.signs rfl hfollow hminus.skipBlanks_rest
  have hsign : sign cs' = some ((), cs₁) := by
    rw [sign, spaced_of_reads (hcs' ▸ hminus), Option.map_some]
  exact ⟨() :: signs, mid, e', rest', .more hsign hchain, hend, hread,
    (applySigns_cons _ _ _).symm, hrest'⟩

theorem binary_isRead (hsound : SoundInside nested) {operator : Operator} {left right : Expr}
    (hoperator : operator.lexeme.Reads cs₁ cs₂)
    (ihLeft : LevelRead nested operator.level left cs cs₁)
    (ihRight : LevelRead nested (operator.level - 1) right cs₂ rest) :
    LevelRead nested operator.level (.binary operator left right) cs rest := by
  have hpos := operator.level_pos
  have hle := operator.level_le
  have hminus := level_ne_minusLevel operator
  obtain ⟨m, hm⟩ : ∃ m, operator.level = m + 1 := ⟨operator.level - 1, by omega⟩
  have hne : m ≠ 1 := by
    rintro rfl
    exact hminus hm
  rw [hm] at ihLeft ihRight ⊢
  refine levelRead_of_operands hne (readerAt_sound hsound (by unfold loosest; omega))
    fun hfollow cs' hcs' => ?_
  obtain ⟨after, hbegins, rfl⟩ := id hoperator
  obtain ⟨first, mid, more, mid', hfirst, hchain, rfl, rfl⟩ :=
    ihLeft.operands rfl hne (follow_of_operator hbegins (by omega)) hcs'
  obtain ⟨rest', hread, hrest'⟩ := ihRight.whole hfollow hoperator.skipBlanks_rest
  have hlast : operation (m + 1) (readerAt nested m) mid' = some ((operator, right), rest') := by
    have hfound := operatorAt_of_begins hbegins
    rw [hm] at hfound
    have hright : readerAt nested m (skipBlanks after) = some (right, rest') := hread
    simp [operation, hfound, hright]
  refine ⟨first, mid, more ++ [(operator, right)], rest', hfirst,
    hchain.append (.more hlast .done), ?_, hrest'⟩
  simp [applyOperations]

end levels

def Phrase.brackets : Phrase → Nat
  | .arguments _ => 1
  | _ => 0

/-- Every phrase that the grammar derives from a text is read as it is derived. Its parts are
derived from suffixes of the text, and a nested expression from a shorter one. -/
theorem Derives.isRead {nested : Reader Expr} {bound : Nat} (hnested : ReadsNested nested bound)
    {phrase : Phrase} {cs rest : List Char} (h : Derives .tight phrase cs rest)
    (hlength : cs.length + phrase.brackets ≤ bound) : phrase.IsRead nested cs rest := by
  have hsound := hnested.sound.inside
  have hpart : ∀ {cs cs' : List Char}, cs' <:+ cs → cs.length ≤ bound → cs'.length ≤ bound :=
    fun hsuffix hle => Nat.le_trans hsuffix.length_le hle
  have hinside : ∀ {word : String} {cs cs' : List Char}, (Lexeme.symbol word).Reads cs cs' →
      cs.length ≤ bound → cs'.length < bound :=
    fun hreads hle => Nat.lt_of_lt_of_le hreads.length_lt hle
  induction h with
  | wildcard | nameTest | namespaceTest | typeTest | instructionTest | axisHead | attributeHead
  | childHead | selfHead | parentHead => trivial
  | step hhead hes _ ih => exact step_isRead hsound hhead hes (ih (hpart hhead.suffix hlength))
  | noPredicates => exact fun cs' hcs' => ⟨cs', .done, hcs'⟩
  | predicate hopen he hclose _ _ ih =>
    have hsuffix := hclose.suffix.trans (he.suffix.trans hopen.suffix)
    exact predicates_isRead hnested (hinside hopen hlength) hopen he hclose
      (ih (hpart hsuffix hlength))
  | firstStep _ ih => exact firstStep_isRead (ih hlength)
  | nextStep hsteps hslash _ ihSteps ih =>
    exact nextStep_isRead (Or.inl ⟨rfl, rfl⟩) hslash (ihSteps hlength)
      (ih (hpart (hslash.suffix.trans hsteps.suffix) hlength))
  | nextDescendantStep hsteps hslashes _ ihSteps ih =>
    exact nextStep_isRead (Or.inr ⟨rfl, rfl⟩) hslashes (ihSteps hlength)
      (ih (hpart (hslashes.suffix.trans hsteps.suffix) hlength))
  | root hslash halone => exact root_isRead hslash halone
  | rootSteps hslash hbefore _ ih =>
    exact rootSteps_isRead hsound hslash hbefore (ih (hpart hslash.reads.suffix hlength))
  | rootDescendantSteps hslashes hbefore _ ih =>
    exact rootDescendantSteps_isRead hsound hslashes hbefore
      (ih (hpart hslashes.reads.suffix hlength))
  | contextSteps hsteps ih => exact contextSteps_isRead hsound hsteps (ih hlength)
  | literal h => exact literal_isRead h
  | number h hlayout => exact number_isRead h hlayout
  | parentheses hopen he hclose _ =>
    exact parentheses_isRead hnested (hinside hopen hlength) hopen he hclose
  | call hname hfunction hopen _ hclose ih =>
    exact call_isRead hname hfunction hopen (ih (hinside hopen (hpart hname.suffix hlength))) hclose
  | noArguments => exact noArguments_isRead hnested
  | lastArgument he _ => exact lastArgument_isRead hnested hlength he
  | argument he hcomma _ _ ih =>
    have hsuffix := hcomma.suffix.trans he.suffix
    exact argument_isRead hnested hlength he hcomma
      (ih (Nat.lt_of_le_of_lt hsuffix.length_le hlength))
  | unfiltered _ ih => exact unfiltered_isRead hsound (ih hlength)
  | filtered hbase _ ihBase ih =>
    exact filtered_isRead hsound (ihBase hlength) (ih (hpart hbase.suffix hlength))
  | locationPath _ ih => exact locationPath_isRead (ih hlength)
  | filterPath _ ih => exact filterPath_isRead hsound (ih hlength)
  | filterSteps hstart hslash _ ihStart ih =>
    exact filterSteps_isRead hsound (Or.inl ⟨rfl, rfl⟩) hslash (ihStart hlength)
      (ih (hpart (hslash.suffix.trans hstart.suffix) hlength))
  | filterDescendantSteps hstart hslashes _ ihStart ih =>
    exact filterSteps_isRead hsound (Or.inr ⟨rfl, rfl⟩) hslashes (ihStart hlength)
      (ih (hpart (hslashes.suffix.trans hstart.suffix) hlength))
  | looser h hn ih => exact looser_isRead hsound hn h (ih hlength)
  | negate hminus _ ih => exact negate_isRead hminus (ih (hpart hminus.suffix hlength))
  | binary hleft hoperator _ ihLeft ihRight =>
    exact binary_isRead hsound hoperator (ihLeft hlength)
      (ihRight (hpart (hoperator.suffix.trans hleft.suffix) hlength))

/-- A numeral that is cut short is read without its fraction. -/
theorem number_of_cut {whole fraction : List Char} (hwhole : IsDigits whole)
    (hfraction : ∀ c ∈ fraction, c.isDigit = true) :
    Token.number (whole ++ '.' :: fraction) = some (Double.ofDigits false whole, []) := by
  have hpoint : StopsAt Char.isDigit ('.' :: fraction) := (stopsAt_cons _ _ _).mpr (by decide)
  obtain ⟨htake, hdrop⟩ := span_exact Char.isDigit whole _ hwhole.2 hpoint
  have hend : fraction.dropWhile Char.isDigit = [] := List.dropWhile_eq_nil_iff.mpr hfraction
  obtain ⟨d, whole, rfl⟩ := List.exists_cons_of_ne_nil hwhole.1
  have hdigits : Token.digits (d :: whole ++ '.' :: fraction) = some (d :: whole, []) := by
    unfold Token.digits
    rw [htake, hdrop]
    simp only [hend]
  rw [Token.number, hdigits, Option.map_some]

/-- A text whose last numeral is cut short is read as the expression without the fraction. -/
theorem DerivesCut.isRead {nested : Reader Expr} {bound : Nat} (hnested : ReadsNested nested bound)
    {phrase : Expr → Phrase} {e : Expr} {cs : List Char} (h : DerivesCut phrase e cs)
    (hlength : cs.length ≤ bound) : (phrase e).IsRead nested cs [] := by
  have hsound := hnested.sound.inside
  induction h with
  | number hwhole hfraction =>
    exact ⟨[], by simp [unspacedPrimary, number_of_cut hwhole hfraction.2], rfl⟩
  | unfiltered _ ih => exact unfiltered_isRead hsound (ih hlength)
  | filterPath _ ih => exact filterPath_isRead hsound (ih hlength)
  | looser h hn ih =>
    obtain ⟨e', -, hderives⟩ := h.exists_free
    exact looser_isRead hsound hn hderives (ih hlength)
  | negate hminus _ ih =>
    exact negate_isRead hminus (ih (Nat.le_trans hminus.suffix.length_le hlength))
  | binary hleft hoperator _ ih =>
    have hsuffix := hoperator.suffix.trans hleft.suffix
    exact binary_isRead hsound hoperator (hleft.isRead hnested hlength)
      (ih (Nat.le_trans hsuffix.length_le hlength))

theorem TakenAs.isRead {nested : Reader Expr} {bound : Nat} (hnested : ReadsNested nested bound)
    {n : Nat} {e : Expr} {cs : List Char} (h : TakenAs (.level n) e cs [])
    (hlength : cs.length ≤ bound) : LevelRead nested n e cs [] := by
  rcases h with h | ⟨-, h⟩
  · exact h.isRead hnested hlength
  · exact h.isRead hnested hlength

theorem expressionWithin_complete (bound : List Char) :
    ReadsNested (expressionWithin bound) bound.length where
  sound := expressionWithin_sound bound
  complete := by
    induction bound with
    | nil => exact fun _ hlength => absurd hlength (Nat.not_lt_zero _)
    | cons _ bound ih =>
      intro e cs rest h hlength hfollow cs' hcs'
      have hread := h.isRead ⟨expressionWithin_sound bound, ih⟩ (Nat.le_of_lt_succ hlength)
      exact hread.whole hfollow hcs'

end Grammar

/-- What is left of a trimmed text does not end with a blank. -/
theorem Text.eq_nil_of_suffix_trim {cs rest : List Char} (h : rest <:+ Text.trim cs)
    (hrest : skipBlanks rest = []) : rest = [] := by
  have hblank : ∀ c ∈ rest, Character.isBlank c = true := by
    simpa using List.dropWhile_eq_nil_iff.mp hrest
  rcases List.eq_nil_or_concat rest with rfl | ⟨init, c, rfl⟩
  · rfl
  exfalso
  obtain ⟨before, hbefore⟩ := h
  rw [List.concat_eq_append] at hbefore hblank
  have hreverse : (Text.trimStart cs).reverse.dropWhile Character.isSpace =
      (before ++ init ++ [c]).reverse := by
    rw [List.append_assoc, hbefore, Text.trim, Text.trimEnd, List.reverse_reverse]
  have hlast := stopsAt_dropWhile Character.isSpace (Text.trimStart cs).reverse c
    (by rw [hreverse, List.reverse_append]; rfl)
  cases hlast.symm.trans (Character.isSpace_of_isBlank (hblank c (by simp)))

open Grammar

/-- A text that the readers take as a whole is parsed. -/
theorem Expr.parse_of_takenAs {source : String} {e : Expr}
    (h : TakenAs (.level loosest) e (Text.trim source.toList) []) : Expr.parse source = .ok e := by
  have hself := Text.skipBlanks_trim source.toList
  have hend : ∀ rest, rest <:+ Text.trim source.toList → skipBlanks rest = [] → rest = [] :=
    fun rest => Text.eq_nil_of_suffix_trim
  unfold Expr.parse
  generalize Text.trim source.toList = cs at h hself hend
  obtain ⟨rest, hread, hrest⟩ :=
    (h.isRead (expressionWithin_complete cs) (Nat.le_refl _)).whole (follow_nil _) hself
  obtain rfl := hend rest (expressionWithin_leavesEnd (' ' :: cs) hread) hrest
  have hexpr : Grammar.expr cs = some (e, []) := hread
  simp only [hexpr]

/-- A text laid out as the readers take it is parsed as the grammar derives it. -/
theorem Expr.parse_of_derives {source : String} {e : Expr}
    (h : Derives .tight (.level loosest e) (Text.trim source.toList) []) :
    Expr.parse source = .ok e :=
  Expr.parse_of_takenAs (Or.inl h)

/-- A text is parsed as the expression that the readers take the whole of it as. -/
theorem Expr.parse_eq_ok_iff (source : String) (e : Expr) :
    Expr.parse source = .ok e ↔ TakenAs (.level loosest) e (Text.trim source.toList) [] :=
  ⟨Expr.takenAs_of_parse, Expr.parse_of_takenAs⟩

end XPathQuery
