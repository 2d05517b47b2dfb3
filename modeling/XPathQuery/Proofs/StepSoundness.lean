import XPathQuery.Proofs.ExpressionGrammar

/-!
The readers of node tests, steps and location paths take what the grammar derives, if the
reader of nested expressions does so wherever a closing bracket follows.
-/
namespace XPathQuery

open Token

namespace Token

inductive Chain {α : Type} (reader : Reader α) : List Char → List α → List Char → Prop
  | done {cs} : Chain reader cs [] cs
  | more {cs a mid as rest} (hfirst : reader cs = some (a, mid))
      (hmore : Chain reader mid as rest) :
      Chain reader cs (a :: as) rest

theorem Chain.append {α : Type} {reader : Reader α} {cs mid rest : List Char} {as bs : List α}
    (h : Chain reader cs as mid) (hmore : Chain reader mid bs rest) :
    Chain reader cs (as ++ bs) rest := by
  induction h with
  | done => exact hmore
  | more hfirst _ ih => exact .more hfirst (ih hmore)

theorem manyWithin_chain {α : Type} (reader : Reader α) (bound cs : List Char) :
    Chain reader cs (manyWithin reader bound cs).1 (manyWithin reader bound cs).2 := by
  induction bound generalizing cs with
  | nil => exact .done
  | cons _ bound ih =>
    rw [manyWithin]
    cases h : reader cs with
    | none => exact .done
    | some found => exact .more h (ih found.2)

theorem chain_of_many {α : Type} {reader : Reader α} {cs rest : List Char} {as : List α}
    (h : many reader cs = (as, rest)) : Chain reader cs as rest := by
  have hchain := manyWithin_chain reader cs cs
  rwa [show manyWithin reader cs cs = (as, rest) from h] at hchain

theorem exists_of_firstOf {α : Type} {spellings : List (α × (List Char → Option (List Char)))}
    {cs rest : List Char} {a : α} (h : firstOf spellings cs = some (a, rest)) :
    ∃ spelling, (a, spelling) ∈ spellings ∧ spelling cs = some rest := by
  obtain ⟨⟨b, spelling⟩, hmem, hfound⟩ := List.exists_of_findSome?_eq_some h
  obtain ⟨after, hafter, hpair⟩ := Option.map_eq_some_iff.mp hfound
  obtain ⟨rfl, rfl⟩ := Prod.mk.inj hpair
  exact ⟨spelling, hmem, hafter⟩

theorem orElse_eq_some_iff {α : Type} {o o' : Option α} {a : α} :
    (o <|> o') = some a ↔ o = some a ∨ o = none ∧ o' = some a := by
  rw [Option.orElse_eq_orElse, Option.orElse_eq_or, Option.or_eq_some_iff]

/-- A symbol that is no part of a longer one. -/
theorem reads_of_spaced {word : String} {cs rest : List Char} (h : spaced word cs = some rest)
    (hword : word ∈ Lexeme.wholeSymbols) : (Lexeme.symbol word).Reads (skipBlanks cs) rest := by
  obtain ⟨after, hafter, rfl⟩ := (spaced_eq_some_iff _ _ _).mp h
  exact ⟨after, ⟨Lexeme.mem_symbols_of_whole word hword, hafter,
    fun c _ => Lexeme.extends?_eq_false_of_whole hword c⟩, rfl⟩

theorem begins_of_symbol {word : String} {cs rest : List Char} (h : symbol word cs = some rest)
    (hword : word ∈ Lexeme.wholeSymbols) : (Lexeme.symbol word).Begins cs rest :=
  ⟨Lexeme.mem_symbols_of_whole word hword, (symbol_eq_some_iff _ _ _).mp h,
    fun c _ => Lexeme.extends?_eq_false_of_whole hword c⟩

/-- Where a symbol is found and one with a character more is not, another character follows. -/
theorem stopsAt_of_symbol_eq_none {word longer : String} {c : Char} {rest : List Char}
    (hlonger : longer.toList = word.toList ++ [c])
    (h : symbol longer (word.toList ++ rest) = none) : StopsAt (· == c) rest := by
  intro d hd
  cases rest with
  | nil => cases hd
  | cons d' tail =>
    obtain rfl := Option.some.inj hd
    rw [beq_eq_false_iff_ne]
    rintro rfl
    have hsymbol : symbol longer (word.toList ++ d' :: tail) = some tail := by
      rw [symbol_eq_some_iff, hlonger, List.append_assoc]
      rfl
    cases h.symm.trans hsymbol

theorem slash_begins {cs rest : List Char} (hslashes : symbol "//" cs = none)
    (h : symbol "/" cs = some rest) : (Lexeme.symbol "/").Begins cs rest := by
  obtain rfl := (symbol_eq_some_iff _ _ _).mp h
  exact ⟨show "/" ∈ Lexeme.symbols by decide, rfl, stopsAt_of_symbol_eq_none rfl hslashes⟩

theorem isNameChar_of_isBlank {c : Char} (h : Character.isBlank c = true) :
    isNameChar c = false := by
  rcases Character.eq_of_isBlank h with rfl | rfl | rfl | rfl <;>
    exact isNameChar_eq_false_of_mem _ (by decide)

theorem stopsAt_isNameChar_of_skipBlanks {after : List Char}
    (h : StopsAt isNameChar (skipBlanks after)) : StopsAt isNameChar after := by
  cases after with
  | nil => exact h
  | cons c tail =>
    by_cases hc : Character.isBlank c = true
    · exact (stopsAt_cons _ _ _).mpr (isNameChar_of_isBlank hc)
    · rwa [skipBlanks_eq_self ((stopsAt_cons _ _ _).mpr (by simpa using hc))] at h

theorem not_beginsLocalPart_of_skipBlanks {c : Char} {after tail : List Char}
    (h : skipBlanks after = c :: tail) (hc : c ≠ ':') : ¬Lexeme.BeginsLocalPart after := by
  rintro ⟨d, cs, rfl, -⟩
  exact hc (List.cons.inj h).1.symm

end Token

namespace Grammar

theorem isName_of_mem_axes : ∀ entry ∈ axes, IsName entry.2.toList := by
  decide +kernel

theorem isName_of_mem_nodeTypeNames : ∀ word ∈ nodeTypeNames, IsName word.toList := by
  decide +kernel

theorem isName_of_mem_nodeTypeTests : ∀ entry ∈ nodeTypeTests, IsName entry.1.toList := by
  have hnames : ∀ entry ∈ nodeTypeTests, entry.1 ∈ nodeTypeNames := by decide
  exact fun entry hentry => isName_of_mem_nodeTypeNames _ (hnames entry hentry)

theorem emptyParentheses_reads {cs rest : List Char} (h : emptyParentheses cs = some rest) :
    ∃ mid, (Lexeme.symbol "(").Reads (skipBlanks cs) mid ∧
      (Lexeme.symbol ")").Reads mid (skipBlanks rest) := by
  obtain ⟨mid, hopen, hclose⟩ := Option.bind_eq_some_iff.mp h
  exact ⟨mid, reads_of_spaced hopen (by decide),
    (begins_of_symbol hclose (by decide)).reads⟩

/-- A word before an opening parenthesis is a whole name. -/
theorem keyword_begins {word : String} {cs after mid : List Char} (hword : IsName word.toList)
    (h : keyword word cs = some after) (hopen : (Lexeme.symbol "(").Reads (skipBlanks after) mid) :
    (Lexeme.name none word.toList).Begins cs after := by
  obtain ⟨rfl, hstops⟩ := (keyword_eq_some_iff _ _ _).mp h
  obtain ⟨tail, hbegins, -⟩ := hopen
  have hcolon := not_beginsLocalPart_of_skipBlanks hbegins.eq_append (by decide)
  exact ⟨⟨nofun, hword⟩, rfl, hstops, hcolon⟩

theorem nodeTypeTest_derives {layout : Layout} {cs rest : List Char} {test : NodeTest}
    (h : nodeTypeTest cs = some (test, rest)) :
    Derives layout (.test test) cs (skipBlanks rest) := by
  have hempty : ∀ word, (word, test) ∈ nodeTypeTests →
      (keyword word cs).bind emptyParentheses = some rest →
      Derives layout (.test test) cs (skipBlanks rest) := by
    intro word hmem hword
    obtain ⟨after, hkeyword, hparentheses⟩ := Option.bind_eq_some_iff.mp hword
    obtain ⟨mid, hopen, hclose⟩ := emptyParentheses_reads hparentheses
    have hname := keyword_begins (isName_of_mem_nodeTypeTests _ hmem) hkeyword hopen
    exact .typeTest hmem hname.reads hopen hclose
  unfold nodeTypeTest at h
  rcases orElse_eq_some_iff.mp h with hfirst | ⟨-, hinstruction⟩
  · obtain ⟨spelling, hmem, hspelling⟩ := exists_of_firstOf hfirst
    simp only [List.mem_cons, Prod.mk.injEq, List.not_mem_nil, or_false] at hmem
    rcases hmem with ⟨rfl, rfl⟩ | ⟨rfl, rfl⟩ | ⟨rfl, rfl⟩
    · exact hempty "text" (by decide) hspelling
    · exact hempty "node" (by decide) hspelling
    · exact hempty "comment" (by decide) hspelling
  · obtain ⟨⟨target, rest'⟩, hread, hpair⟩ := Option.map_eq_some_iff.mp hinstruction
    obtain ⟨rfl, rfl⟩ := Prod.mk.inj hpair
    obtain ⟨after, hkeyword, htarget⟩ := Option.bind_eq_some_iff.mp hread
    have hword : IsName "processing-instruction".toList :=
      isName_of_mem_nodeTypeNames "processing-instruction" (by decide)
    unfold instructionTarget at htarget
    split at htarget
    · cases htarget
    · rename_i inside hspaced
      have hopen := reads_of_spaced hspaced (by decide)
      have hname := keyword_begins hword hkeyword hopen
      split at htarget
      · rename_i text afterText hliteral
        obtain ⟨after', hclose, hpair⟩ := Option.map_eq_some_iff.mp htarget
        obtain ⟨rfl, rfl⟩ := Prod.mk.inj hpair
        obtain ⟨quote, hbegins⟩ := (literal_eq_some_iff _ _ _).mp hliteral
        exact .instructionTest hname.reads hopen hbegins.reads
          (begins_of_symbol hclose (by decide)).reads
      · obtain ⟨after', hclose, hpair⟩ := Option.map_eq_some_iff.mp htarget
        obtain ⟨rfl, rfl⟩ := Prod.mk.inj hpair
        exact .typeTest (by simp [nodeTypeTests]) hname.reads hopen
          (begins_of_symbol hclose (by decide)).reads

theorem namespaceWildcard_eq_some_iff {cs rest : List Char} {test : NodeTest} :
    namespaceWildcard cs = some (test, rest) ↔ ∃ nsPrefix,
      (Lexeme.prefixStar nsPrefix).Begins cs rest ∧
        test = .namespaceWildcard (String.ofList nsPrefix) none := by
  constructor
  · intro h
    unfold namespaceWildcard at h
    split at h
    · rename_i nsPrefix after hname
      obtain ⟨after', hstar, hpair⟩ := Option.map_eq_some_iff.mp h
      obtain ⟨rfl, rfl⟩ := Prod.mk.inj hpair
      obtain ⟨hvalid, rfl, -⟩ := (name_eq_some_iff _ _ _).mp hname
      rw [symbol_eq_some_iff] at hstar
      subst hstar
      exact ⟨nsPrefix, ⟨hvalid, by simp [Lexeme.text], trivial⟩, rfl⟩
    · cases h
  · rintro ⟨nsPrefix, ⟨hvalid, rfl, -⟩, rfl⟩
    have hname : name (nsPrefix ++ ':' :: '*' :: rest) = some (nsPrefix, ':' :: '*' :: rest) :=
      (name_eq_some_iff _ _ _).mpr ⟨hvalid, rfl, stopsAt_isNameChar_cons (by decide)⟩
    have hstar : symbol ":*" (':' :: '*' :: rest) = some rest :=
      (symbol_eq_some_iff _ _ _).mpr rfl
    simp [namespaceWildcard, Lexeme.text, hname, hstar]

/-- A prefix with a star is tried before a name, so no star can follow the name. -/
theorem nodeTest_derives {layout : Layout} {cs rest : List Char} {test : NodeTest}
    (h : nodeTest cs = some (test, rest)) : Derives layout (.test test) cs (skipBlanks rest) := by
  unfold nodeTest at h
  rcases orElse_eq_some_iff.mp h with hstar | ⟨-, h⟩
  · obtain ⟨after, hsymbol, hpair⟩ := Option.map_eq_some_iff.mp hstar
    obtain ⟨rfl, rfl⟩ := Prod.mk.inj hpair
    exact .wildcard (begins_of_symbol hsymbol (by decide)).reads
  rcases orElse_eq_some_iff.mp h with htype | ⟨-, h⟩
  · exact nodeTypeTest_derives htype
  rcases orElse_eq_some_iff.mp h with hnamespace | ⟨hnone, h⟩
  · obtain ⟨nsPrefix, hbegins, rfl⟩ := namespaceWildcard_eq_some_iff.mp hnamespace
    exact .namespaceTest hbegins.reads
  · obtain ⟨⟨⟨nsPrefix, localPart⟩, after⟩, hname, hpair⟩ := Option.map_eq_some_iff.mp h
    obtain ⟨rfl, rfl⟩ := Prod.mk.inj hpair
    obtain ⟨hprefixName, hlocal, rfl, hstops, hlast⟩ := (qualifiedName_eq_some_iff _ _ _ _).mp hname
    refine .nameTest (Lexeme.Begins.reads ⟨⟨hprefixName, hlocal⟩, rfl, ?_⟩)
    cases nsPrefix with
    | some p => exact hstops
    | none =>
      refine ⟨hstops, ?_⟩
      rintro ⟨c, tail, rfl, hc | rfl⟩
      · rw [hlast rfl c tail rfl] at hc
        cases hc
      · have hbegins :
            (Lexeme.prefixStar localPart).Begins (localPart ++ ':' :: '*' :: tail) tail :=
          ⟨hlocal, by simp [Lexeme.text], trivial⟩
        have hnamespace := namespaceWildcard_eq_some_iff.mpr ⟨localPart, hbegins, rfl⟩
        cases hnone.symm.trans hnamespace

/-- An axis is written as a name, and two colons follow it. -/
theorem axis_reads {cs rest : List Char} {found : Axis} (h : axis cs = some (found, rest)) :
    ∃ word mid, (found, word) ∈ axes ∧ (Lexeme.name none word.toList).Reads cs mid ∧
      (Lexeme.symbol "::").Reads mid rest := by
  unfold axis at h
  split at h
  · rename_i a after hfirst
    obtain ⟨rest', hcolons, hpair⟩ := Option.map_eq_some_iff.mp h
    obtain ⟨rfl, rfl⟩ := Prod.mk.inj hpair
    obtain ⟨spelling, hmem, hspelling⟩ := exists_of_firstOf hfirst
    obtain ⟨⟨a', word⟩, hentry, hpair⟩ := List.mem_map.mp hmem
    obtain ⟨rfl, rfl⟩ := Prod.mk.inj hpair
    have hreads := reads_of_spaced hcolons (by decide)
    refine ⟨word, skipBlanks after, hentry, ⟨after, ⟨⟨nofun, isName_of_mem_axes _ hentry⟩,
      (symbol_eq_some_iff _ _ _).mp hspelling, ?_⟩, rfl⟩, hreads⟩
    obtain ⟨tail, ⟨-, htext, -⟩, -⟩ := hreads
    refine ⟨stopsAt_isNameChar_of_skipBlanks ?_, ?_⟩
    · rw [htext]
      exact stopsAt_isNameChar_cons (by decide)
    · rintro ⟨c, cs, rfl, hc⟩
      obtain rfl : c = ':' := (List.cons.inj (List.cons.inj htext).2).1
      rcases hc with hc | hc
      · cases hc.symm.trans (isNameStart_eq_false_of_mem _ (by decide))
      · cases hc
  · cases h

theorem selfAbbreviation_eq_some_iff (cs rest : List Char) :
    selfAbbreviation cs = some rest ↔ cs = '.' :: rest ∧ StopsAt Char.isDigit rest := by
  rw [show '.' :: rest = ".".toList ++ rest from rfl, ← symbol_eq_some_iff]
  exact unlessFollowed_eq_some_iff Char.isDigit (symbol "." cs) rest

theorem selfAbbreviation_begins {cs rest : List Char} (hparent : symbol ".." cs = none)
    (h : selfAbbreviation cs = some rest) : (Lexeme.symbol ".").Begins cs rest := by
  obtain ⟨rfl, hdigit⟩ := (selfAbbreviation_eq_some_iff _ _).mp h
  refine ⟨show "." ∈ Lexeme.symbols by decide, rfl, ?_⟩
  have hpoint : StopsAt (· == '.') rest :=
    @stopsAt_of_symbol_eq_none "." ".." '.' rest rfl hparent
  intro c hc
  simp [Lexeme.extends?, hdigit c hc, hpoint c hc]

/-- Nothing but an at sign may be apart from what stands before a step. -/
theorem stepHead_derives {cs rest : List Char} {axis : Axis} {test : NodeTest}
    (h : stepHead cs = some ((axis, test), rest)) :
    Derives .tight (.head axis test) (skipBlanks cs) (skipBlanks rest) ∧
      Layout.tight.beforeStep cs := by
  have hunspaced : Derives .tight (.head axis test) cs (skipBlanks rest) →
      Derives .tight (.head axis test) (skipBlanks cs) (skipBlanks rest) ∧
        Layout.tight.beforeStep cs := by
    intro hderives
    have hself : skipBlanks cs = cs := hderives.skipBlanks_eq_self id
    rw [hself]
    exact ⟨hderives, Or.inl hself⟩
  unfold stepHead at h
  rcases orElse_eq_some_iff.mp h with hparent | ⟨hparent, h⟩
  · obtain ⟨after, hsymbol, hpair⟩ := Option.map_eq_some_iff.mp hparent
    cases hpair
    exact hunspaced (.parentHead (begins_of_symbol hsymbol (by decide)).reads)
  rcases orElse_eq_some_iff.mp h with hself | ⟨-, h⟩
  · obtain ⟨after, habbreviation, hpair⟩ := Option.map_eq_some_iff.mp hself
    cases hpair
    exact hunspaced
      (.selfHead (selfAbbreviation_begins (Option.map_eq_none_iff.mp hparent) habbreviation).reads)
  rcases orElse_eq_some_iff.mp h with hattribute | ⟨-, h⟩
  · obtain ⟨⟨test', after⟩, hread, hpair⟩ := Option.map_eq_some_iff.mp hattribute
    cases hpair
    obtain ⟨mid, hat, htest⟩ := Option.bind_eq_some_iff.mp hread
    have hreads := reads_of_spaced hat (by decide)
    refine ⟨.attributeHead hreads (nodeTest_derives htest), Or.inr ?_⟩
    obtain ⟨tail, ⟨-, htext, -⟩, -⟩ := hreads
    exact ⟨tail, htext⟩
  · split at h
    · rename_i a mid haxis
      obtain ⟨⟨test', after⟩, htest, hpair⟩ := Option.map_eq_some_iff.mp h
      cases hpair
      obtain ⟨word, cs₁, hentry, hname, hcolons⟩ := axis_reads haxis
      exact hunspaced (.axisHead hentry hname hcolons (nodeTest_derives htest))
    · obtain ⟨⟨test', after⟩, htest, hpair⟩ := Option.map_eq_some_iff.mp h
      cases hpair
      exact hunspaced (.childHead (nodeTest_derives htest))

def SoundInside (nested : Reader Expr) : Prop :=
  ∀ cs e rest, nested cs = some (e, rest) → skipBlanks rest ≠ [] →
    Derives .tight (.level loosest e) (skipBlanks cs) (skipBlanks rest)

def bracketed (left right : String) (nested : Reader Expr) : Reader Expr := fun cs =>
  match spaced left cs with
  | none => none
  | some rest =>
      match nested rest with
      | some (e, rest) => (spaced right rest).map fun rest => (e, rest)
      | none => none

theorem predicate_eq (nested : Reader Expr) : predicate nested = bracketed "[" "]" nested := rfl

theorem parenthesized_eq (nested : Reader Expr) :
    parenthesized nested = bracketed "(" ")" nested := rfl

theorem bracketed_derives {nested : Reader Expr} (hnested : SoundInside nested)
    {left right : String} (hleft : left ∈ ["(", "["]) (hright : right ∈ [")", "]"])
    {cs rest : List Char} {e : Expr} (h : bracketed left right nested cs = some (e, rest)) :
    ∃ cs₁ cs₂, (Lexeme.symbol left).Reads (skipBlanks cs) cs₁ ∧
      Derives .tight (.level loosest e) cs₁ cs₂ ∧ (Lexeme.symbol right).Reads cs₂ rest := by
  have hopen : ∀ {after}, spaced left cs = some after →
      (Lexeme.symbol left).Reads (skipBlanks cs) after := by
    simp only [List.mem_cons, List.not_mem_nil, or_false] at hleft
    rcases hleft with rfl | rfl <;> exact fun h => reads_of_spaced h (by decide)
  have hclose : ∀ {cs}, spaced right cs = some rest →
      (Lexeme.symbol right).Reads (skipBlanks cs) rest := by
    simp only [List.mem_cons, List.not_mem_nil, or_false] at hright
    rcases hright with rfl | rfl <;> exact fun h => reads_of_spaced h (by decide)
  unfold bracketed at h
  split at h
  · cases h
  · rename_i inside hspaced
    split at h
    · rename_i e' after hread
      obtain ⟨rest', hend, hpair⟩ := Option.map_eq_some_iff.mp h
      cases hpair
      have hreads := hclose hend
      have hinside : skipBlanks inside = inside := (hopen hspaced).skipBlanks_rest
      refine ⟨inside, skipBlanks after, hopen hspaced, ?_, hreads⟩
      rw [← hinside]
      exact hnested _ _ _ hread hreads.ne_nil
    · cases h

theorem predicates_derives {nested : Reader Expr} (hnested : SoundInside nested)
    {cs rest : List Char} {es : List Expr} (h : Chain (predicate nested) cs es rest) :
    Derives .tight (.predicates es) (skipBlanks cs) (skipBlanks rest) := by
  induction h with
  | done => exact .noPredicates
  | more hfirst _ ih =>
    obtain ⟨cs₁, cs₂, hopen, he, hclose⟩ :=
      bracketed_derives hnested (by simp) (by simp) (predicate_eq nested ▸ hfirst)
    rw [hclose.skipBlanks_rest] at ih
    exact .predicate hopen he hclose ih

theorem step_derives {nested : Reader Expr} (hnested : SoundInside nested) {cs rest : List Char}
    {s : Step} (h : step nested cs = some (s, rest)) :
    Derives .tight (.step s) (skipBlanks cs) (skipBlanks rest) ∧ Layout.tight.beforeStep cs := by
  obtain ⟨⟨⟨axis, test⟩, after⟩, hhead, hpair⟩ := Option.map_eq_some_iff.mp h
  obtain ⟨rfl, rfl⟩ := Prod.mk.inj hpair
  obtain ⟨hderives, hbefore⟩ := stepHead_derives hhead
  exact ⟨.step hderives (predicates_derives hnested (chain_of_many rfl)), hbefore⟩

theorem furtherStep_derives {nested : Reader Expr} (hnested : SoundInside nested)
    {cs rest : List Char} {steps : List Step} (h : furtherStep nested cs = some (steps, rest)) :
    ∃ s mid, Derives .tight (.step s) mid (skipBlanks rest) ∧
      ((Lexeme.symbol "/").Reads (skipBlanks cs) mid ∧ steps = [s] ∨
        (Lexeme.symbol "//").Reads (skipBlanks cs) mid ∧ steps = [Step.descendantOrSelf, s]) := by
  unfold furtherStep at h
  split at h
  · rename_i mid hslashes
    obtain ⟨⟨s, after⟩, hstep, hpair⟩ := Option.map_eq_some_iff.mp h
    cases hpair
    have hreads := reads_of_spaced hslashes (by decide)
    have hderives := (step_derives hnested hstep).1
    rw [hreads.skipBlanks_rest] at hderives
    exact ⟨s, mid, hderives, Or.inr ⟨hreads, rfl⟩⟩
  · rename_i hslashes
    split at h
    · rename_i mid hslash
      obtain ⟨⟨s, after⟩, hstep, hpair⟩ := Option.map_eq_some_iff.mp h
      cases hpair
      obtain ⟨after', hsymbol, rfl⟩ := Option.map_eq_some_iff.mp hslash
      have hreads := (slash_begins (Option.map_eq_none_iff.mp hslashes) hsymbol).reads
      have hderives := (step_derives hnested hstep).1
      rw [hreads.skipBlanks_rest] at hderives
      exact ⟨s, _, hderives, Or.inl ⟨hreads, rfl⟩⟩
    · cases h

/-- Steps with more steps after them. -/
theorem furtherSteps_derives {nested : Reader Expr} (hnested : SoundInside nested)
    {cs mid rest : List Char} {steps : List Step} {more : List (List Step)}
    (hsteps : Derives .tight (.steps steps) cs (skipBlanks mid))
    (h : Chain (furtherStep nested) mid more rest) :
    Derives .tight (.steps (steps ++ more.flatten)) cs (skipBlanks rest) := by
  induction h generalizing steps with
  | done => simpa using hsteps
  | more hfirst _ ih =>
    rw [List.flatten_cons, ← List.append_assoc]
    obtain ⟨s, mid', hstep, ⟨hslash, rfl⟩ | ⟨hslashes, rfl⟩⟩ := furtherStep_derives hnested hfirst
    · exact ih (.nextStep hsteps hslash hstep)
    · exact ih (.nextDescendantStep hsteps hslashes hstep)

theorem relativeSteps_derives {nested : Reader Expr} (hnested : SoundInside nested)
    {cs rest : List Char} {steps : List Step}
    (h : relativeSteps nested cs = some (steps, rest)) :
    Derives .tight (.steps steps) (skipBlanks cs) (skipBlanks rest) ∧
      Layout.tight.beforeStep cs := by
  obtain ⟨⟨first, mid⟩, hfirst, hpair⟩ := Option.map_eq_some_iff.mp h
  obtain ⟨rfl, rfl⟩ := Prod.mk.inj hpair
  obtain ⟨hderives, hbefore⟩ := step_derives hnested hfirst
  exact ⟨furtherSteps_derives hnested (.firstStep hderives) (chain_of_many rfl), hbefore⟩

theorem stepHead_eq_none {nested : Reader Expr} {cs : List Char}
    (h : relativeSteps nested cs = none) : stepHead cs = none := by
  rwa [relativeSteps, Option.map_eq_none_iff, step, Option.map_eq_none_iff] at h

theorem locationPath_derives {nested : Reader Expr} (hnested : SoundInside nested)
    {cs rest : List Char} {e : Expr} (h : locationPath nested cs = some (e, rest)) :
    Derives .tight (.location e) (skipBlanks cs) (skipBlanks rest) := by
  have hself : ∀ {word after}, word ∈ ["/", "//"] → symbol word cs = some after →
      skipBlanks cs = cs := by
    intro word after hword hsymbol
    obtain rfl := (symbol_eq_some_iff _ _ _).mp hsymbol
    simp only [List.mem_cons, List.not_mem_nil, or_false] at hword
    rcases hword with rfl | rfl <;> rfl
  unfold locationPath at h
  split at h
  · rename_i after hslashes
    obtain ⟨⟨steps, rest'⟩, hsteps, hpair⟩ := Option.map_eq_some_iff.mp h
    cases hpair
    obtain ⟨hderives, hbefore⟩ := relativeSteps_derives hnested hsteps
    rw [hself (by simp) hslashes]
    exact .rootDescendantSteps (begins_of_symbol hslashes (by decide)) hbefore
      hderives
  · rename_i hslashes
    split at h
    · rename_i after hslash
      rw [hself (by simp) hslash]
      have hbegins := slash_begins hslashes hslash
      split at h
      · rename_i steps rest' hsteps
        cases h
        obtain ⟨hderives, hbefore⟩ := relativeSteps_derives hnested hsteps
        exact .rootSteps hbegins hbefore hderives
      · rename_i hsteps
        cases h
        exact .root hbegins (stepHead_eq_none hsteps)
    · obtain ⟨⟨steps, rest'⟩, hsteps, hpair⟩ := Option.map_eq_some_iff.mp h
      cases hpair
      exact .contextSteps (relativeSteps_derives hnested hsteps).1

end Grammar

end XPathQuery
