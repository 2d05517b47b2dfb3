import XPathQuery.Expr.Parse
import XPathQuery.Proofs.StepSoundness

/-!
What is parsed is what the grammar derives from the whole text. Only the numeral at the end
of a text is read without its fraction, so the expression that a text with such a numeral
stands for is cut short.
-/
namespace XPathQuery

open Token

namespace Grammar

/-- An expression whose last numeral is read without the fraction it has at the end of a
text. -/
inductive CutShort (cs : List Char) : Expr → Expr → Prop
  | number {whole fraction} (hwhole : IsDigits whole) (hfraction : IsDigits fraction)
      (hend : whole ++ '.' :: fraction <:+ cs) :
      CutShort cs (.number (Double.ofDigits false (whole ++ '.' :: fraction)))
        (.number (Double.ofDigits false whole))
  | binary {operator left right cut} (hright : CutShort cs right cut) :
      CutShort cs (.binary operator left right) (.binary operator left cut)
  | negate {e cut} (he : CutShort cs e cut) : CutShort cs (.negate e) (.negate cut)

theorem CutShort.mono {cs cs' : List Char} {e cut : Expr} (h : CutShort cs e cut)
    (hsuffix : cs <:+ cs') : CutShort cs' e cut := by
  induction h with
  | number hwhole hfraction hend => exact .number hwhole hfraction (hend.trans hsuffix)
  | binary _ ih => exact .binary ih
  | negate _ ih => exact .negate ih

def ReadAs (phrase : Expr → Phrase) (e : Expr) (cs rest : List Char) : Prop :=
  Derives .tight (phrase e) cs rest ∨
    rest = [] ∧ ∃ e', CutShort cs e' e ∧ Derives .free (phrase e') cs []

/-- What the readers take of a text that ends with a numeral they cut short: all but the
numeral is derived as they take it. -/
inductive DerivesCut : (Expr → Phrase) → Expr → List Char → Prop
  | number {whole fraction} (hwhole : IsDigits whole) (hfraction : IsDigits fraction) :
      DerivesCut .primary (.number (Double.ofDigits false whole)) (whole ++ '.' :: fraction)
  | unfiltered {e cs} (h : DerivesCut .primary e cs) : DerivesCut .filter e cs
  | filterPath {e cs} (h : DerivesCut .filter e cs) : DerivesCut (.level 0) e cs
  | looser {n e cs} (h : DerivesCut (.level n) e cs) (hn : n < loosest) :
      DerivesCut (.level (n + 1)) e cs
  | negate {e cs cs₁} (hminus : (Lexeme.symbol "-").Reads cs cs₁)
      (h : DerivesCut (.level minusLevel) e cs₁) : DerivesCut (.level minusLevel) (.negate e) cs
  | binary {operator left right cs cs₁ cs₂}
      (hleft : Derives .tight (.level operator.level left) cs cs₁)
      (hoperator : operator.lexeme.Reads cs₁ cs₂)
      (hright : DerivesCut (.level (operator.level - 1)) right cs₂) :
      DerivesCut (.level operator.level) (.binary operator left right) cs

theorem numeral_begins_cut {whole fraction : List Char} (hwhole : IsDigits whole)
    (hfraction : IsDigits fraction) :
    (Lexeme.numeral (whole ++ '.' :: fraction)).Begins (whole ++ '.' :: fraction) [] :=
  ⟨.fraction hwhole hfraction, (List.append_nil _).symm, stopsAt_nil _⟩

/-- The grammar derives the expression with the whole numeral. -/
theorem DerivesCut.exists_free {phrase : Expr → Phrase} {e : Expr} {cs : List Char}
    (h : DerivesCut phrase e cs) : ∃ e', CutShort cs e' e ∧ Derives .free (phrase e') cs [] := by
  induction h with
  | number hwhole hfraction =>
    exact ⟨_, .number hwhole hfraction List.suffix_rfl,
      .number (numeral_begins_cut hwhole hfraction) trivial⟩
  | unfiltered _ ih =>
    obtain ⟨e', hcut, h⟩ := ih
    exact ⟨e', hcut, .unfiltered h⟩
  | filterPath _ ih =>
    obtain ⟨e', hcut, h⟩ := ih
    exact ⟨e', hcut, .filterPath h⟩
  | looser _ hn ih =>
    obtain ⟨e', hcut, h⟩ := ih
    exact ⟨e', hcut, .looser h hn⟩
  | negate hminus _ ih =>
    obtain ⟨e', hcut, h⟩ := ih
    exact ⟨.negate e', .negate (hcut.mono hminus.suffix), .negate hminus h⟩
  | binary hleft hoperator _ ih =>
    obtain ⟨e', hcut, h⟩ := ih
    exact ⟨.binary _ _ e', .binary (hcut.mono (hoperator.suffix.trans hleft.suffix)),
      .binary hleft.free hoperator h⟩

def TakenAs (phrase : Expr → Phrase) (e : Expr) (cs rest : List Char) : Prop :=
  Derives .tight (phrase e) cs rest ∨ rest = [] ∧ DerivesCut phrase e cs

namespace TakenAs

variable {phrase phrase' : Expr → Phrase} {e : Expr} {cs cs₁ cs₂ rest : List Char}

theorem readAs (h : TakenAs phrase e cs rest) : ReadAs phrase e cs rest :=
  h.imp_right fun ⟨hrest, hcut⟩ => ⟨hrest, hcut.exists_free⟩

theorem derives (h : TakenAs phrase e cs rest) (hrest : rest ≠ []) :
    Derives .tight (phrase e) cs rest :=
  h.resolve_right fun hcut => hrest hcut.1

theorem exists_free (h : TakenAs phrase e cs rest) : ∃ e', Derives .free (phrase e') cs rest := by
  rcases h with h | ⟨rfl, h⟩
  · exact ⟨e, h.free⟩
  · obtain ⟨e', -, h⟩ := h.exists_free
    exact ⟨e', h⟩

/-- What is read begins with no colon, nor do the blanks before it. -/
theorem head?_ne_colon (h : TakenAs phrase e (skipBlanks cs) rest)
    (hphrase : ∀ e, ¬(phrase e).MayBeEmpty) : cs.head? ≠ some ':' := by
  intro hcolon
  obtain ⟨e', hderives⟩ := h.exists_free
  refine hderives.head?_ne (hphrase e') (c := ':')
    (Lexeme.opensLexeme_eq_false_of_mem _ (by decide)) (by decide) ?_
  rwa [skipBlanks_of_head? hcolon (by decide)]

/-- A rule that derives one phrase from another of the same expression. -/
theorem map (h : TakenAs phrase e cs rest)
    (hrule : Derives .tight (phrase e) cs rest → Derives .tight (phrase' e) cs rest)
    (hcut : DerivesCut phrase e cs → DerivesCut phrase' e cs) : TakenAs phrase' e cs rest :=
  Or.imp hrule (And.imp_right hcut) h

theorem negate (hminus : (Lexeme.symbol "-").Reads cs cs₁)
    (h : TakenAs (.level minusLevel) e cs₁ rest) :
    TakenAs (.level minusLevel) (.negate e) cs rest :=
  Or.imp (.negate hminus) (And.imp_right (.negate hminus)) h

theorem binary {operator : Operator} {left right : Expr}
    (hleft : Derives .tight (.level operator.level left) cs cs₁)
    (hoperator : operator.lexeme.Reads cs₁ cs₂)
    (hright : TakenAs (.level (operator.level - 1)) right cs₂ rest) :
    TakenAs (.level operator.level) (.binary operator left right) cs rest :=
  Or.imp (.binary hleft hoperator) (And.imp_right (.binary hleft hoperator)) hright

end TakenAs

/-- A point without digits after it does not change a number. -/
theorem ofDigits_point {whole : List Char} (hwhole : ∀ c ∈ whole, c.isDigit = true) :
    Double.ofDigits false (whole ++ ['.']) = Double.ofDigits false whole := by
  have hread : ∀ c ∈ whole, (c != '.') = true := by
    intro c hc
    simp only [bne_iff_ne, ne_eq]
    rintro rfl
    exact not_mem_point hwhole hc
  obtain ⟨htake, hdrop⟩ := span_exact (· != '.') whole ['.'] hread (by simp)
  obtain ⟨htake', hdrop'⟩ := span_exact (· != '.') whole [] hread (stopsAt_nil _)
  rw [List.append_nil] at htake' hdrop'
  simp only [Double.ofDigits, htake, hdrop, htake', hdrop', List.drop_succ_cons, List.drop_nil]

theorem number_takenAs {cs rest : List Char} {value : Double}
    (h : Token.number cs = some (value, rest)) :
    TakenAs .primary (.number value) cs (skipBlanks rest) := by
  obtain ⟨⟨digits, rest'⟩, hdigits, hpair⟩ := Option.map_eq_some_iff.mp h
  obtain ⟨rfl, rfl⟩ := Prod.mk.inj hpair
  obtain ⟨read, hbegins, hread⟩ := digits_eq_some _ _ _ hdigits
  obtain rfl := hbegins.eq_append
  rcases hread with rfl | ⟨rfl, hwhole, fraction, hfraction, rfl⟩
  · exact Or.inl (.number hbegins h)
  · cases fraction with
    | nil =>
      rw [← ofDigits_point hwhole.2] at h ⊢
      exact Or.inl (.number hbegins h)
    | cons c fraction =>
      rw [Lexeme.text, List.append_nil]
      exact Or.inr ⟨rfl, .number hwhole ⟨List.cons_ne_nil _ _, hfraction⟩⟩

def Sound (phrase : Expr → Phrase) (reader : Reader Expr) : Prop :=
  ∀ cs e rest, reader cs = some (e, rest) → TakenAs phrase e (skipBlanks cs) (skipBlanks rest)

theorem Sound.inside {nested : Reader Expr} (h : Sound (.level loosest) nested) :
    SoundInside nested :=
  fun cs e rest hread hrest => (h cs e rest hread).derives hrest

def furtherArgument (nested : Reader Expr) : Reader Expr := fun cs => (spaced "," cs).bind nested

theorem furtherArguments_derives {nested : Reader Expr} (hnested : SoundInside nested)
    {mid rest : List Char} {more : List Expr}
    (hchain : Chain (furtherArgument nested) mid more rest)
    (hrest : skipBlanks rest ≠ []) {cs : List Char} {first : Expr}
    (hfirst : nested cs = some (first, mid)) :
    Derives .tight (.arguments (first :: more)) (skipBlanks cs) (skipBlanks rest) := by
  induction hchain generalizing cs first with
  | done => exact .lastArgument (hnested _ _ _ hfirst hrest)
  | more hnext _ ih =>
    obtain ⟨after, hcomma, hread⟩ := Option.bind_eq_some_iff.mp hnext
    have hreads := reads_of_spaced hcomma (by decide)
    have hderives := ih hrest hread
    rw [hreads.skipBlanks_rest] at hderives
    exact .argument (hnested _ _ _ hfirst hreads.ne_nil) hreads hderives

theorem arguments_eq (nested : Reader Expr) (cs : List Char) :
    arguments nested cs = match nested cs with
      | none => ([], cs)
      | some (first, rest) =>
          let (more, rest) := many (furtherArgument nested) rest
          (first :: more, rest) := rfl

theorem arguments_derives {nested : Reader Expr} (hnested : SoundInside nested)
    {cs rest : List Char} {es : List Expr} (h : arguments nested cs = (es, rest))
    (hrest : skipBlanks rest ≠ []) :
    Derives .tight (.arguments es) (skipBlanks cs) (skipBlanks rest) := by
  rw [arguments_eq] at h
  split at h
  · cases h
    exact .noArguments
  · rename_i first mid hfirst
    cases h
    exact furtherArguments_derives hnested (chain_of_many rfl) hrest hfirst

theorem call_derives {nested : Reader Expr} (hnested : SoundInside nested) {cs rest : List Char}
    {e : Expr} (h : call nested cs = some (e, rest)) :
    Derives .tight (.primary e) cs (skipBlanks rest) := by
  unfold call at h
  split at h
  · cases h
  · rename_i qname after hname
    obtain ⟨nsPrefix, localPart⟩ := qname
    dsimp only at h
    split at h
    · cases h
    · rename_i inside hopen
      split at h
      · cases h
      · rename_i hfunction
        obtain ⟨rest', hclose, hpair⟩ := Option.map_eq_some_iff.mp h
        cases hpair
        obtain ⟨hnames, hlocal, rfl, hstops, -⟩ := (qualifiedName_eq_some_iff _ _ _ _).mp hname
        have hinside := begins_of_symbol hopen (by decide)
        have hend := reads_of_spaced hclose (by decide)
        have hends : (Lexeme.name nsPrefix localPart).EndsBefore after := by
          cases nsPrefix with
          | some p => exact hstops
          | none => exact ⟨hstops, not_beginsLocalPart_of_skipBlanks hinside.eq_append (by decide)⟩
        have hname : (Lexeme.name nsPrefix localPart).Begins _ after :=
          ⟨⟨hnames, hlocal⟩, rfl, hends⟩
        rw [hend.skipBlanks_rest]
        exact .call hname.reads (by simpa using hfunction) hinside.reads
          (arguments_derives hnested rfl hend.ne_nil) hend

theorem unspacedPrimary_takenAs {nested : Reader Expr} (hnested : SoundInside nested)
    {cs rest : List Char} {e : Expr} (hcs : skipBlanks cs = cs)
    (h : unspacedPrimary nested cs = some (e, rest)) : TakenAs .primary e cs (skipBlanks rest) := by
  unfold unspacedPrimary at h
  rcases orElse_eq_some_iff.mp h with hnumber | ⟨-, h⟩
  · obtain ⟨⟨value, rest'⟩, hread, hpair⟩ := Option.map_eq_some_iff.mp hnumber
    cases hpair
    exact number_takenAs hread
  rcases orElse_eq_some_iff.mp h with hliteral | ⟨-, h⟩
  · obtain ⟨⟨text, rest'⟩, hread, hpair⟩ := Option.map_eq_some_iff.mp hliteral
    cases hpair
    obtain ⟨quote, hbegins⟩ := (literal_eq_some_iff _ _ _).mp hread
    exact Or.inl (.literal hbegins.reads)
  rcases orElse_eq_some_iff.mp h with hcall | ⟨-, h⟩
  · exact Or.inl (call_derives hnested hcall)
  · obtain ⟨cs₁, cs₂, hopen, he, hclose⟩ :=
      bracketed_derives hnested (by simp) (by simp) (parenthesized_eq nested ▸ h)
    rw [hcs] at hopen
    rw [hclose.skipBlanks_rest]
    exact Or.inl (.parentheses hopen he hclose)

theorem primary_takenAs {nested : Reader Expr} (hnested : SoundInside nested)
    {cs rest : List Char} {e : Expr} (h : primary nested cs = some (e, rest)) :
    TakenAs .primary e (skipBlanks cs) rest := by
  obtain ⟨⟨e', rest'⟩, hread, hpair⟩ := Option.map_eq_some_iff.mp h
  cases hpair
  exact unspacedPrimary_takenAs hnested (skipBlanks_skipBlanks cs) hread

theorem filtered_takenAs {nested : Reader Expr} (hnested : SoundInside nested)
    {cs rest : List Char} {e : Expr} (h : filtered nested cs = some (e, rest)) :
    TakenAs .filter e (skipBlanks cs) (skipBlanks rest) := by
  obtain ⟨⟨base, mid⟩, hbase, hpair⟩ := Option.map_eq_some_iff.mp h
  have hread := primary_takenAs hnested hbase
  have hmid : skipBlanks mid = mid := by
    obtain ⟨⟨e', rest'⟩, -, hpair⟩ := Option.map_eq_some_iff.mp hbase
    rw [← (Prod.mk.inj hpair).2, skipBlanks_skipBlanks]
  dsimp only at hpair
  split at hpair
  · rename_i rest' hmany
    cases hpair
    cases chain_of_many hmany
    rw [hmid]
    exact hread.map .unfiltered .unfiltered
  · rename_i es rest' hne hmany
    cases hpair
    have hchain := chain_of_many hmany
    have hpredicates := predicates_derives hnested hchain
    cases hchain with
    | done => exact (hne rfl).elim
    | more hfirst hmore =>
      obtain ⟨_, _, hopen, -, -⟩ :=
        bracketed_derives hnested (by simp) (by simp) (predicate_eq nested ▸ hfirst)
      rw [hmid] at hopen hpredicates
      exact Or.inl (.filtered (hread.derives hopen.ne_nil) hpredicates)

/-- Steps after a start are none, or a path from there. -/
theorem furtherSteps_takenAs {nested : Reader Expr} (hnested : SoundInside nested)
    {cs mid rest : List Char} {start : Expr} {steps : List Step}
    (hstart : TakenAs .filter start cs (skipBlanks mid))
    (h : furtherSteps nested mid = (steps, rest)) :
    steps = [] ∧ rest = mid ∨ steps ≠ [] ∧
      Derives .tight (.level 0 (.path (.expr start) steps)) cs (skipBlanks rest) := by
  cases hmany : many (furtherStep nested) mid with
  | mk found rest' =>
    have hchain := chain_of_many hmany
    simp only [furtherSteps, hmany, Prod.mk.injEq] at h
    obtain ⟨rfl, rfl⟩ := h
    cases hchain with
    | done => exact Or.inl ⟨rfl, rfl⟩
    | more hfirst hmore =>
      right
      rw [List.flatten_cons]
      obtain ⟨s, after, hstep, ⟨hslash, rfl⟩ | ⟨hslashes, rfl⟩⟩ :=
        furtherStep_derives hnested hfirst
      · exact ⟨List.cons_ne_nil _ _, .filterSteps (hstart.derives hslash.ne_nil) hslash
          (furtherSteps_derives hnested (.firstStep hstep) hmore)⟩
      · exact ⟨List.cons_ne_nil _ _,
          .filterDescendantSteps (hstart.derives hslashes.ne_nil) hslashes
            (furtherSteps_derives hnested (.firstStep hstep) hmore)⟩

theorem path_sound {nested : Reader Expr} (hnested : SoundInside nested) :
    Sound (.level 0) (path nested) := by
  intro cs e rest h
  unfold path at h
  split at h
  · rename_i start mid hstart
    have hread := filtered_takenAs hnested hstart
    split at h
    · rename_i rest' hsteps
      cases h
      rcases furtherSteps_takenAs hnested hread hsteps with ⟨-, rfl⟩ | ⟨hsome, -⟩
      · exact hread.map .filterPath .filterPath
      · exact absurd rfl hsome
    · rename_i steps rest' hne hsteps
      cases h
      rcases furtherSteps_takenAs hnested hread hsteps with ⟨rfl, -⟩ | ⟨-, hpath⟩
      · exact (hne rfl).elim
      · exact Or.inl hpath
  · obtain ⟨⟨e', rest'⟩, hlocation, hpair⟩ := Option.map_eq_some_iff.mp h
    cases hpair
    have hderives := locationPath_derives hnested hlocation
    rw [skipBlanks_skipBlanks] at hderives ⊢
    exact Or.inl (.locationPath hderives)

def operatorAt : Nat → Reader Operator
  | 1 => unionOperator
  | 3 => productOperator
  | 4 => sumOperator
  | 5 => relationOperator
  | 6 => equalityOperator
  | 7 => andOperator
  | 8 => orOperator
  | _ => fun _ => none

def readerAt (nested : Reader Expr) : Nat → Reader Expr
  | 0 => path nested
  | 2 => negated (readerAt nested 1)
  | n + 1 => level (operatorAt (n + 1)) (readerAt nested n)

theorem readerAt_succ {nested : Reader Expr} {n : Nat} (h : n ≠ 1) :
    readerAt nested (n + 1) = level (operatorAt (n + 1)) (readerAt nested n) := by
  rw [readerAt]
  omega

theorem expression_eq (nested : Reader Expr) : expression nested = readerAt nested loosest := rfl

/-- The longer of two relations is tried first. -/
theorem relationOperator_begins {cs after : List Char} {operator : Operator}
    (h : relationOperator cs = some (operator, after)) :
    operator.level = 5 ∧ operator.lexeme.Begins cs after := by
  have hlonger : ∀ {word}, word ∈ ["<=", ">="] → symbol word cs = some after →
      (Lexeme.symbol word).Begins cs after := by
    intro word hword
    simp only [List.mem_cons, List.not_mem_nil, or_false] at hword
    rcases hword with rfl | rfl <;> exact fun h => begins_of_symbol h (by decide)
  have hshorter : ∀ {word longer}, (word, longer) ∈ [("<", "<="), (">", ">=")] →
      symbol longer cs = none → symbol word cs = some after →
      (Lexeme.symbol word).Begins cs after := by
    intro word longer hword hnone hsymbol
    obtain rfl := (symbol_eq_some_iff _ _ _).mp hsymbol
    simp only [List.mem_cons, Prod.mk.injEq, List.not_mem_nil, or_false] at hword
    rcases hword with ⟨rfl, rfl⟩ | ⟨rfl, rfl⟩
    · exact ⟨show "<" ∈ Lexeme.symbols by decide, rfl, stopsAt_of_symbol_eq_none rfl hnone⟩
    · exact ⟨show ">" ∈ Lexeme.symbols by decide, rfl, stopsAt_of_symbol_eq_none rfl hnone⟩
  simp only [relationOperator, firstOf_cons, firstOf_nil, Option.or_none, Option.or_eq_some_iff,
    Option.map_eq_some_iff, Option.map_eq_none_iff, Prod.mk.injEq] at h
  rcases h with ⟨_, hle, rfl, rfl⟩ | ⟨hle, ⟨_, hge, rfl, rfl⟩ | ⟨hge, h⟩⟩
  · exact ⟨rfl, hlonger (by simp) hle⟩
  · exact ⟨rfl, hlonger (by simp) hge⟩
  · rcases h with ⟨_, hless, rfl, rfl⟩ | ⟨-, _, hgreater, rfl, rfl⟩
    · exact ⟨rfl, hshorter (by simp) hle hless⟩
    · exact ⟨rfl, hshorter (by simp) hge hgreater⟩

/-- An operator that is a word is a whole name where no colon follows it. -/
theorem operatorAt_begins {n : Nat} {cs after : List Char} {operator : Operator}
    (h : operatorAt n cs = some (operator, after)) :
    operator.level = n ∧ cs = operator.lexeme.text ++ after ∧
      (after.head? ≠ some ':' → operator.lexeme.Begins cs after) := by
  have hword : ∀ {word}, keyword word cs = some after → IsName word.toList →
      cs = word.toList ++ after ∧
        (after.head? ≠ some ':' → (Lexeme.name none word.toList).Begins cs after) := by
    intro word hkeyword hvalid
    obtain ⟨rfl, hstops⟩ := (keyword_eq_some_iff _ _ _).mp hkeyword
    refine ⟨rfl, fun hcolon => ⟨⟨nofun, hvalid⟩, rfl, hstops, ?_⟩⟩
    rintro ⟨c, tail, rfl, -⟩
    exact hcolon rfl
  have hsymbol : ∀ {lexeme : Lexeme}, lexeme.Begins cs after →
      cs = lexeme.text ++ after ∧ (after.head? ≠ some ':' → lexeme.Begins cs after) :=
    fun hbegins => ⟨hbegins.eq_append, fun _ => hbegins⟩
  unfold operatorAt at h
  split at h
  case h_4 =>
    obtain ⟨hlevel, hbegins⟩ := relationOperator_begins h
    exact ⟨hlevel, hsymbol hbegins⟩
  case h_8 => cases h
  all_goals
    obtain ⟨spelling, hmem, hspelling⟩ := exists_of_firstOf h
    simp only [List.mem_cons, Prod.mk.injEq, List.not_mem_nil, or_false] at hmem
  · obtain ⟨rfl, rfl⟩ := hmem
    exact ⟨rfl, hsymbol (begins_of_symbol hspelling (by decide))⟩
  · rcases hmem with ⟨rfl, rfl⟩ | ⟨rfl, rfl⟩ | ⟨rfl, rfl⟩
    · exact ⟨rfl, hsymbol (begins_of_symbol hspelling (by decide))⟩
    · exact ⟨rfl, hword hspelling (Operator.lexeme_valid (.arithmetic .divide)).2⟩
    · exact ⟨rfl, hword hspelling (Operator.lexeme_valid (.arithmetic .remainder)).2⟩
  · rcases hmem with ⟨rfl, rfl⟩ | ⟨rfl, rfl⟩
    · exact ⟨rfl, hsymbol (begins_of_symbol hspelling (by decide))⟩
    · exact ⟨rfl, hsymbol (begins_of_symbol hspelling (by decide))⟩
  · rcases hmem with ⟨rfl, rfl⟩ | ⟨rfl, rfl⟩
    · exact ⟨rfl, hsymbol (begins_of_symbol hspelling (by decide))⟩
    · exact ⟨rfl, hsymbol (begins_of_symbol hspelling (by decide))⟩
  · obtain ⟨rfl, rfl⟩ := hmem
    exact ⟨rfl, hword hspelling (Operator.lexeme_valid .and).2⟩
  · obtain ⟨rfl, rfl⟩ := hmem
    exact ⟨rfl, hword hspelling (Operator.lexeme_valid .or).2⟩

def operation (n : Nat) (operand : Reader Expr) : Reader (Operator × Expr) := fun cs =>
  (operatorAt n (skipBlanks cs)).bind fun (operator, rest) =>
    (operand (skipBlanks rest)).map fun (right, rest) => ((operator, right), rest)

def applyOperations (first : Expr) (more : List (Operator × Expr)) : Expr :=
  more.foldl (fun left (operator, right) => .binary operator left right) first

theorem level_eq (n : Nat) (operand : Reader Expr) (cs : List Char) :
    level (operatorAt n) operand cs = (operand cs).map fun (first, rest) =>
      let (more, rest) := many (operation n operand) rest
      (applyOperations first more, rest) := rfl

theorem operation_reads {n : Nat} {operand : Reader Expr} (hoperand : Sound (.level n) operand)
    {cs rest : List Char} {operator : Operator} {right : Expr}
    (h : operation (n + 1) operand cs = some ((operator, right), rest)) :
    ∃ mid, operator.level = n + 1 ∧ operator.lexeme.Reads (skipBlanks cs) mid ∧
      TakenAs (.level n) right mid (skipBlanks rest) := by
  obtain ⟨⟨operator', after⟩, hoperator, hright⟩ := Option.bind_eq_some_iff.mp h
  obtain ⟨⟨right', rest'⟩, hright, hpair⟩ := Option.map_eq_some_iff.mp hright
  cases hpair
  have hread := hoperand _ _ _ hright
  rw [skipBlanks_skipBlanks] at hread
  obtain ⟨hlevel, -, hbegins⟩ := operatorAt_begins hoperator
  exact ⟨_, hlevel, (hbegins (hread.head?_ne_colon fun _ => id)).reads, hread⟩

/-- Operands with operators of one level between them, after a first operand. -/
theorem operations_takenAs {n : Nat} {operand : Reader Expr} (hoperand : Sound (.level n) operand)
    {cs mid rest : List Char} {first : Expr} {more : List (Operator × Expr)}
    (hfirst : TakenAs (.level (n + 1)) first cs (skipBlanks mid))
    (hchain : Chain (operation (n + 1) operand) mid more rest) :
    TakenAs (.level (n + 1)) (applyOperations first more) cs (skipBlanks rest) := by
  induction hchain generalizing first with
  | done => exact hfirst
  | more hnext _ ih =>
    obtain ⟨mid, hlevel, hoperator, hright⟩ := operation_reads hoperand hnext
    have hleft := hfirst.derives hoperator.ne_nil
    apply ih
    obtain rfl : n = _ - 1 := (Nat.sub_eq_of_eq_add hlevel).symm
    rw [← hlevel] at hleft ⊢
    exact TakenAs.binary hleft hoperator hright

theorem level_sound {n : Nat} (hn : n < loosest) {operand : Reader Expr}
    (hoperand : Sound (.level n) operand) :
    Sound (.level (n + 1)) (level (operatorAt (n + 1)) operand) := by
  intro cs e rest h
  rw [level_eq] at h
  obtain ⟨⟨first, mid⟩, hfirst, hpair⟩ := Option.map_eq_some_iff.mp h
  cases hpair
  refine operations_takenAs hoperand ?_ (chain_of_many rfl)
  exact (hoperand _ _ _ hfirst).map (fun h => .looser h hn) fun h => .looser h hn

def sign : Reader Unit := fun cs => (spaced "-" cs).map fun rest => ((), rest)

def applySigns (signs : List Unit) (e : Expr) : Expr := signs.foldl (fun e _ => .negate e) e

theorem applySigns_cons (sign : Unit) (signs : List Unit) (e : Expr) :
    applySigns (sign :: signs) e = .negate (applySigns signs e) := by
  induction signs generalizing e with
  | nil => rfl
  | cons _ signs ih => exact ih (.negate e)

theorem sign_reads {cs rest : List Char} {u : Unit} (h : sign cs = some (u, rest)) :
    (Lexeme.symbol "-").Reads (skipBlanks cs) rest := by
  obtain ⟨after, hminus, hpair⟩ := Option.map_eq_some_iff.mp h
  cases hpair
  exact reads_of_spaced hminus (by decide)

theorem negated_eq (operand : Reader Expr) (cs : List Char) :
    negated operand cs =
      let (signs, rest) := many sign cs
      (operand rest).map fun (e, rest) => (applySigns signs e, rest) := rfl

theorem signs_takenAs {cs mid rest : List Char} {signs : List Unit} {e : Expr}
    (he : TakenAs (.level minusLevel) e (skipBlanks mid) rest) (h : Chain sign cs signs mid) :
    TakenAs (.level minusLevel) (applySigns signs e) (skipBlanks cs) rest := by
  induction h with
  | done => exact he
  | more hsign _ ih =>
    have hreads := sign_reads hsign
    have hread := ih he
    rw [hreads.skipBlanks_rest] at hread
    rw [applySigns_cons]
    exact hread.negate hreads

theorem negated_sound {operand : Reader Expr} (hoperand : Sound (.level 1) operand) :
    Sound (.level minusLevel) (negated operand) := by
  intro cs e rest h
  rw [negated_eq] at h
  obtain ⟨⟨e', rest'⟩, hread, hpair⟩ := Option.map_eq_some_iff.mp h
  cases hpair
  refine signs_takenAs ?_ (chain_of_many rfl)
  exact (hoperand _ _ _ hread).map (fun h => .looser h (by decide)) fun h => .looser h (by decide)

theorem readerAt_sound {nested : Reader Expr} (hnested : SoundInside nested) {n : Nat}
    (hn : n ≤ loosest) : Sound (.level n) (readerAt nested n) := by
  induction n with
  | zero => exact path_sound hnested
  | succ n ih =>
    have hoperand := ih (Nat.le_of_succ_le hn)
    by_cases h : n = 1
    · subst h
      exact negated_sound hoperand
    · rw [readerAt_succ h]
      exact level_sound hn hoperand

theorem expressionWithin_sound (bound : List Char) :
    Sound (.level loosest) (expressionWithin bound) := by
  induction bound with
  | nil => exact fun _ _ _ h => nomatch h
  | cons _ bound ih =>
    rw [expressionWithin, expression_eq]
    exact readerAt_sound ih.inside (Nat.le_refl _)

end Grammar

namespace Text

theorem trimEnd_prefix (cs : List Char) : trimEnd cs <+: cs := by
  rw [← List.reverse_suffix, trimEnd, List.reverse_reverse]
  exact List.dropWhile_suffix _

theorem skipBlanks_trim (cs : List Char) : skipBlanks (trim cs) = trim cs := by
  apply skipBlanks_eq_self
  intro c hc
  have hstart : (trimStart cs).head? = some c := by
    obtain ⟨tail, htail⟩ := trimEnd_prefix (trimStart cs)
    rw [← htail, List.head?_append, show (trimEnd (trimStart cs)).head? = some c from hc]
    rfl
  rw [Bool.eq_false_iff]
  intro hblank
  have hspace := stopsAt_dropWhile Character.isSpace cs c hstart
  rw [Character.isSpace_of_isBlank hblank] at hspace
  cases hspace

end Text

open Grammar

/-- The whole of a text is read, spaces around it apart. -/
theorem Expr.takenAs_of_parse {source : String} {e : Expr} (h : Expr.parse source = .ok e) :
    TakenAs (.level loosest) e (Text.trim source.toList) [] := by
  unfold Expr.parse at h
  dsimp only at h
  split at h
  · rename_i e' hread
    cases h
    have hsound := expressionWithin_sound _ _ _ _ hread
    rwa [Text.skipBlanks_trim] at hsound
  · cases h
  · cases h

theorem Expr.readAs_of_parse {source : String} {e : Expr} (h : Expr.parse source = .ok e) :
    ReadAs (.level loosest) e (Text.trim source.toList) [] :=
  (Expr.takenAs_of_parse h).readAs

/-- Only the numeral at the end of a text can lose its fraction. -/
theorem Expr.derives_of_parse {source : String} {e : Expr} (h : Expr.parse source = .ok e) :
    Derives .free (.level loosest e) (Text.trim source.toList) [] ∨
      ∃ e', CutShort (Text.trim source.toList) e' e ∧
        Derives .free (.level loosest e') (Text.trim source.toList) [] := by
  rcases Expr.readAs_of_parse h with hderives | ⟨-, hcut⟩
  · exact Or.inl hderives.free
  · exact Or.inr hcut

theorem Expr.derives_of_parse_predicate :
    ∃ e, Expr.parse "a[. = 5.5]/b + 5.5" = .ok e ∧
      (Derives .free (.level loosest e) (Text.trim "a[. = 5.5]/b + 5.5".toList) [] ∨
        ∃ e', CutShort (Text.trim "a[. = 5.5]/b + 5.5".toList) e' e ∧
          Derives .free (.level loosest e') (Text.trim "a[. = 5.5]/b + 5.5".toList) []) := by
  have hok : (Expr.parse "a[. = 5.5]/b + 5.5").isOk = true := by decide +kernel
  cases h : Expr.parse "a[. = 5.5]/b + 5.5" with
  | error error =>
    rw [h] at hok
    cases hok
  | ok e => exact ⟨e, rfl, Expr.derives_of_parse h⟩

/-- A numeral that is the whole text is read without its fraction. -/
theorem Expr.parse_cuts_fraction :
    ∃ e, Expr.parse "5.5" = .ok e ∧
      ¬Derives .free (.level loosest e) (Text.trim "5.5".toList) [] := by
  refine ⟨.number (Double.ofDigits false ['5']), rfl, ?_⟩
  intro h
  have hdigits : IsDigits ['5'] := ⟨by decide, forall_mem_of_all (by decide)⟩
  have hnumeral : IsNumeral "5.5".toList := .fraction hdigits hdigits
  have htrim : Text.trim "5.5".toList = "5.5".toList := by decide +kernel
  rw [htrim] at h
  have hvalue := Expr.number.inj (h.of_numeral hnumeral).1
  revert hvalue
  decide +kernel

end XPathQuery
