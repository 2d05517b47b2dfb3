import XPathQuery.Proofs.StepSoundness

/-!
Lexemes decide what the readers of node tests and of steps take. A name is a node type or a
function only before a parenthesis, and an axis only before two colons; where neither
follows, it is a name test.
-/
namespace XPathQuery

open Token

def Apart (chars : String) (rest : List Char) : Prop := StopsAt chars.toList.contains rest

theorem Apart.mono {chars chars' : String} {rest : List Char} (h : Apart chars' rest)
    (hsubset : chars.toList ⊆ chars'.toList) : Apart chars rest := by
  intro c hc
  have hnot := h c hc
  rw [Bool.eq_false_iff, Ne, List.contains_iff_mem] at hnot ⊢
  exact fun hmem => hnot (hsubset hmem)

theorem Apart.head?_ne {chars : String} {rest : List Char} (h : Apart chars rest) {c : Char}
    (hc : c ∈ chars.toList) : rest.head? ≠ some c := by
  intro hhead
  have hnot := h c hhead
  rw [Bool.eq_false_iff, Ne, List.contains_iff_mem] at hnot
  exact hnot hc

namespace Token

/-- Readings that each take something are as many as there can be. -/
theorem many_eq_of_chain {α : Type} {reader : Reader α}
    (hshrinks : ∀ cs a rest, reader cs = some (a, rest) →
      (skipBlanks rest).length < (skipBlanks cs).length)
    {cs rest : List Char} {as : List α} (hchain : Chain reader cs as rest)
    (hend : reader rest = none) : many reader cs = (as, rest) := by
  have hbound : ∀ bound, (skipBlanks cs).length ≤ bound.length →
      manyWithin reader bound cs = (as, rest) := by
    induction hchain with
    | done =>
      intro bound _
      cases bound with
      | nil => rfl
      | cons _ bound => rw [manyWithin, hend]
    | more hfirst _ ih =>
      intro bound hbound
      have hless := hshrinks _ _ _ hfirst
      cases bound with
      | nil =>
        rw [List.length_nil] at hbound
        omega
      | cons _ bound =>
        rw [List.length_cons] at hbound
        rw [manyWithin, hfirst]
        dsimp only
        rw [ih hend bound (by omega)]
  exact hbound cs (skipBlanks_suffix cs).length_le

theorem symbol_of_begins {word : String} {cs rest : List Char}
    (h : (Lexeme.symbol word).Begins cs rest) : symbol word cs = some rest :=
  (symbol_eq_some_iff _ _ _).mpr h.eq_append

/-- A symbol is not read where a shorter one is a lexeme. -/
theorem symbol_eq_none_of_begins {word longer : String} {c : Char} {cs rest : List Char}
    (h : (Lexeme.symbol word).Begins cs rest) (hlonger : longer.toList = word.toList ++ [c])
    (hc : Lexeme.extends? word c = true) : symbol longer cs = none := by
  rw [Option.eq_none_iff_forall_ne_some]
  intro tail hsymbol
  have htext := (symbol_eq_some_iff _ _ _).mp hsymbol
  rw [h.eq_append, hlonger, List.append_assoc] at htext
  have hrest : rest = c :: tail := List.append_cancel_left htext
  have hstops := h.endsBefore c (by rw [hrest]; rfl)
  cases hc.symm.trans hstops

theorem spaced_of_reads {word : String} {cs rest : List Char}
    (h : (Lexeme.symbol word).Reads (skipBlanks cs) rest) : spaced word cs = some rest := by
  obtain ⟨after, hbegins, rfl⟩ := h
  rw [spaced, symbol_of_begins hbegins, Option.map_some]

theorem symbol_eq_none {word : String} {c : Char} {cs : List Char}
    (hword : word.toList.head? = some c) (hcs : cs.head? ≠ some c) : symbol word cs = none := by
  rw [Option.eq_none_iff_forall_ne_some]
  intro rest h
  rw [symbol_eq_some_iff] at h
  rw [h, List.head?_append, hword] at hcs
  exact hcs rfl

theorem spaced_eq_none {word : String} {c : Char} {cs : List Char}
    (hword : word.toList.head? = some c) (hcs : (skipBlanks cs).head? ≠ some c) :
    spaced word cs = none := by
  rw [spaced, symbol_eq_none hword hcs, Option.map_none]

theorem keyword_of_begins {word : String} {cs after : List Char}
    (h : (Lexeme.name none word.toList).Begins cs after) : keyword word cs = some after :=
  (keyword_eq_some_iff _ _ _).mpr ⟨h.eq_append, h.endsBefore.1⟩

theorem qualifiedName_of_begins {nsPrefix : Option (List Char)} {localPart cs after : List Char}
    (h : (Lexeme.name nsPrefix localPart).Begins cs after) :
    qualifiedName cs = some ((nsPrefix, localPart), after) := by
  refine (qualifiedName_eq_some_iff _ _ _ _).mpr ⟨h.valid.1, h.valid.2, h.eq_append, ?_⟩
  cases nsPrefix with
  | some p => exact ⟨h.endsBefore, nofun⟩
  | none =>
    refine ⟨h.endsBefore.1, ?_⟩
    rintro - c tail rfl
    rw [Bool.eq_false_iff]
    exact fun hc => h.endsBefore.2 ⟨c, tail, rfl, Or.inl hc⟩

theorem qualifiedName_of_prefixStar {nsPrefix cs after : List Char}
    (h : (Lexeme.prefixStar nsPrefix).Begins cs after) :
    qualifiedName cs = some ((none, nsPrefix), ':' :: '*' :: after) := by
  refine (qualifiedName_eq_some_iff _ _ _ _).mpr ⟨nofun, h.valid, ?_, ?_, ?_⟩
  · exact h.eq_append.trans (List.append_assoc _ _ _)
  · exact stopsAt_isNameChar_cons (by decide)
  · rintro - c tail htail
    obtain ⟨rfl, -⟩ := List.cons.inj (List.cons.inj htail).2
    exact isNameStart_eq_false_of_mem _ (by decide)

theorem isNameStart_of_qualifiedName {cs after : List Char}
    {qname : Option (List Char) × List Char} (h : qualifiedName cs = some (qname, after)) :
    ∃ c tail, cs = c :: tail ∧ isNameStart c = true := by
  cases cs with
  | nil => cases h
  | cons c tail =>
    refine ⟨c, tail, rfl, ?_⟩
    by_contra hc
    have hname : name (c :: tail) = none := if_neg hc
    simp [qualifiedName, hname] at h

theorem head?_ne_of_qualifiedName {cs after : List Char} {qname : Option (List Char) × List Char}
    (h : qualifiedName cs = some (qname, after)) {c : Char} (hc : isNameStart c = false) :
    cs.head? ≠ some c := by
  obtain ⟨d, tail, rfl, hd⟩ := isNameStart_of_qualifiedName h
  intro hhead
  cases Option.some.inj hhead
  cases hc.symm.trans hd

theorem head?_ne_punctuation {cs after : List Char} {qname : Option (List Char) × List Char}
    (h : qualifiedName cs = some (qname, after)) {c : Char} (hc : c ∈ '.' :: '-' :: punctuation) :
    cs.head? ≠ some c :=
  head?_ne_of_qualifiedName h (isNameStart_eq_false_of_mem c hc)

theorem skipBlanks_of_qualifiedName {cs after : List Char}
    {qname : Option (List Char) × List Char} (h : qualifiedName cs = some (qname, after)) :
    skipBlanks cs = cs := by
  apply skipBlanks_eq_self
  intro c hc
  rw [Bool.eq_false_iff]
  intro hblank
  refine head?_ne_of_qualifiedName h ?_ hc
  rw [Bool.eq_false_iff]
  intro hstart
  cases (isNameChar_of_isBlank hblank).symm.trans (isNameChar_of_isNameStart hstart)

end Token

namespace Grammar

/-- A name that no parenthesis follows is no node type. -/
theorem nodeTypeTest_eq_none {cs after : List Char} {qname : Option (List Char) × List Char}
    (hname : qualifiedName cs = some (qname, after))
    (hafter : (skipBlanks after).head? ≠ some '(') : nodeTypeTest cs = none := by
  have hword : ∀ {word after' mid}, IsName word.toList → keyword word cs = some after' →
      spaced "(" after' = some mid → False := by
    intro word after' mid hvalid hkeyword hopen
    have hreads := reads_of_spaced hopen (by decide)
    have hbegins := keyword_begins hvalid hkeyword hreads
    cases hname.symm.trans (qualifiedName_of_begins hbegins)
    obtain ⟨tail, ⟨-, htext, -⟩, -⟩ := hreads
    exact hafter (by rw [htext]; rfl)
  have hempty : ∀ {word rest}, IsName word.toList →
      (keyword word cs).bind emptyParentheses = some rest → False := by
    intro word rest hvalid h
    obtain ⟨after', hkeyword, hparentheses⟩ := Option.bind_eq_some_iff.mp h
    obtain ⟨mid, hopen, -⟩ := Option.bind_eq_some_iff.mp hparentheses
    exact hword hvalid hkeyword hopen
  rw [Option.eq_none_iff_forall_ne_some]
  rintro ⟨test, rest⟩ h
  rcases orElse_eq_some_iff.mp h with hfirst | ⟨-, hinstruction⟩
  · obtain ⟨spelling, hmem, hspelling⟩ := exists_of_firstOf hfirst
    simp only [List.mem_cons, Prod.mk.injEq, List.not_mem_nil, or_false] at hmem
    rcases hmem with ⟨-, rfl⟩ | ⟨-, rfl⟩ | ⟨-, rfl⟩
    · exact hempty (isName_of_mem_nodeTypeNames "text" (by decide)) hspelling
    · exact hempty (isName_of_mem_nodeTypeNames "node" (by decide)) hspelling
    · exact hempty (isName_of_mem_nodeTypeNames "comment" (by decide)) hspelling
  · obtain ⟨found, hread, -⟩ := Option.map_eq_some_iff.mp hinstruction
    obtain ⟨after', hkeyword, htarget⟩ := Option.bind_eq_some_iff.mp hread
    unfold instructionTarget at htarget
    split at htarget
    · cases htarget
    · rename_i mid hopen
      exact hword (isName_of_mem_nodeTypeNames "processing-instruction" (by decide)) hkeyword hopen

section

variable {cs cs₁ cs₂ cs₃ rest : List Char}

theorem instructionTest_of_target {after : List Char} {target : Option String}
    (hname : (Lexeme.name none "processing-instruction".toList).Begins cs after)
    (htarget : instructionTarget after = some (target, rest)) :
    nodeTypeTest cs = some (.instruction target, rest) := by
  have htext : keyword "text" cs = none := by rw [hname.eq_append]; rfl
  have hnode : keyword "node" cs = none := by rw [hname.eq_append]; rfl
  have hcomment : keyword "comment" cs = none := by rw [hname.eq_append]; rfl
  simp [nodeTypeTest, htext, hnode, hcomment, keyword_of_begins hname, htarget]

theorem nodeTypeTest_of_reads {word : String} {test : NodeTest}
    (htest : (word, test) ∈ nodeTypeTests) (hname : (Lexeme.name none word.toList).Reads cs cs₁)
    (hopen : (Lexeme.symbol "(").Reads cs₁ cs₂) (hclose : (Lexeme.symbol ")").Reads cs₂ rest) :
    ∃ rest', nodeTypeTest cs = some (test, rest') ∧ skipBlanks rest' = rest := by
  obtain ⟨after, hbegins, rfl⟩ := hname
  obtain ⟨rest', hend, rfl⟩ := hclose
  refine ⟨rest', ?_, rfl⟩
  have hkeyword := keyword_of_begins hbegins
  have hsymbol := symbol_of_begins hend
  have hparentheses : emptyParentheses after = some rest' := by
    rw [emptyParentheses, spaced_of_reads hopen]
    exact hsymbol
  have htext := hbegins.eq_append
  simp only [nodeTypeTests, List.mem_cons, Prod.mk.injEq, List.not_mem_nil, or_false] at htest
  rcases htest with ⟨rfl, rfl⟩ | ⟨rfl, rfl⟩ | ⟨rfl, rfl⟩ | ⟨rfl, rfl⟩
  · simp [nodeTypeTest, hkeyword, hparentheses]
  · have hfirst : keyword "text" cs = none := by rw [htext]; rfl
    simp [nodeTypeTest, hfirst, hkeyword, hparentheses]
  · have hfirst : keyword "text" cs = none := by rw [htext]; rfl
    have hsecond : keyword "node" cs = none := by rw [htext]; rfl
    simp [nodeTypeTest, hfirst, hsecond, hkeyword, hparentheses]
  · have hliteral : literal cs₂ = none := by rw [hend.eq_append]; rfl
    have hinstruction : instructionTarget after = some (none, rest') := by
      simp [instructionTarget, spaced_of_reads hopen, hliteral, hsymbol]
    exact instructionTest_of_target hbegins hinstruction

theorem nodeTypeTest_of_target {quote : Char} {target : List Char}
    (hname : (Lexeme.name none "processing-instruction".toList).Reads cs cs₁)
    (hopen : (Lexeme.symbol "(").Reads cs₁ cs₂)
    (htarget : (Lexeme.literal quote target).Reads cs₂ cs₃)
    (hclose : (Lexeme.symbol ")").Reads cs₃ rest) :
    ∃ rest', nodeTypeTest cs = some (.instruction (some (String.ofList target)), rest') ∧
      skipBlanks rest' = rest := by
  obtain ⟨after, hbegins, rfl⟩ := hname
  obtain ⟨after', hquoted, rfl⟩ := htarget
  obtain ⟨rest', hend, rfl⟩ := hclose
  have hliteral := (literal_eq_some_iff _ _ _).mpr ⟨quote, hquoted⟩
  refine ⟨rest', instructionTest_of_target hbegins ?_, rfl⟩
  simp [instructionTarget, spaced_of_reads hopen, hliteral, symbol_of_begins hend]

/-- Where the grammar derives a test and no parenthesis follows, the test is read. -/
theorem nodeTest_complete {layout : Layout} {test : NodeTest}
    (h : Derives layout (.test test) cs rest) (hrest : Apart "(" rest) :
    ∃ rest', nodeTest cs = some (test, rest') ∧ skipBlanks rest' = rest := by
  have hstar : ∀ {qname : Option (List Char) × List Char} {after},
      qualifiedName cs = some (qname, after) → symbol "*" cs = none := fun hname =>
    symbol_eq_none rfl (head?_ne_punctuation hname (by decide))
  cases h with
  | wildcard h =>
    obtain ⟨after, hbegins, rfl⟩ := h
    exact ⟨after, by simp [nodeTest, symbol_of_begins hbegins], rfl⟩
  | nameTest h =>
    obtain ⟨after, hbegins, rfl⟩ := h
    have hname := qualifiedName_of_begins hbegins
    have htype := nodeTypeTest_eq_none hname (hrest.head?_ne (by decide))
    have hnamespace : namespaceWildcard cs = none := by
      rw [Option.eq_none_iff_forall_ne_some]
      rintro ⟨test, rest⟩ hsome
      obtain ⟨p, hprefixStar, -⟩ := namespaceWildcard_eq_some_iff.mp hsome
      cases hname.symm.trans (qualifiedName_of_prefixStar hprefixStar)
      exact hbegins.endsBefore.2 ⟨_, _, rfl, Or.inr rfl⟩
    exact ⟨after, by simp [nodeTest, nameTest, hstar hname, htype, hnamespace, hname], rfl⟩
  | namespaceTest h =>
    obtain ⟨after, hbegins, rfl⟩ := h
    have hname := qualifiedName_of_prefixStar hbegins
    have htype := nodeTypeTest_eq_none hname nofun
    have hnamespace := namespaceWildcard_eq_some_iff.mpr ⟨_, hbegins, rfl⟩
    exact ⟨after, by simp [nodeTest, hstar hname, htype, hnamespace], rfl⟩
  | typeTest htest hname hopen hclose =>
    obtain ⟨rest', hread, hrest'⟩ := nodeTypeTest_of_reads htest hname hopen hclose
    obtain ⟨after, hbegins, -⟩ := hname
    exact ⟨rest', by simp [nodeTest, hstar (qualifiedName_of_begins hbegins), hread], hrest'⟩
  | instructionTest hname hopen htarget hclose =>
    obtain ⟨rest', hread, hrest'⟩ := nodeTypeTest_of_target hname hopen htarget hclose
    obtain ⟨after, hbegins, -⟩ := hname
    exact ⟨rest', by simp [nodeTest, hstar (qualifiedName_of_begins hbegins), hread], hrest'⟩

def BeginsTestName (cs : List Char) : Prop :=
  ∃ qname after, qualifiedName cs = some (qname, after) ∧
    (skipBlanks after).take 2 ≠ [':', ':'] ∧
    ((skipBlanks after).head? = some '(' → qualifiedText qname ∈ nodeTypeNames)

theorem Derives.test_begins {layout : Layout} {test : NodeTest}
    (h : Derives layout (.test test) cs rest) (hrest : Apart "(:" rest) :
    cs.head? = some '*' ∨ BeginsTestName cs := by
  have hcall : ∀ {word : List Char} {cs₁ cs₂}, String.ofList word ∈ nodeTypeNames →
      (Lexeme.name none word).Reads cs cs₁ → (Lexeme.symbol "(").Reads cs₁ cs₂ →
      BeginsTestName cs := by
    rintro word cs₁ cs₂ hword ⟨after, hbegins, rfl⟩ ⟨inside, ⟨-, htext, -⟩, -⟩
    refine ⟨_, _, qualifiedName_of_begins hbegins, ?_, fun _ => hword⟩
    rw [htext]
    exact fun h => nomatch (List.cons.inj h).1
  cases h with
  | wildcard h =>
    obtain ⟨after, ⟨-, rfl, -⟩, -⟩ := h
    exact Or.inl rfl
  | nameTest h =>
    obtain ⟨after, hbegins, rfl⟩ := h
    refine Or.inr ⟨_, _, qualifiedName_of_begins hbegins, ?_, fun hopen => ?_⟩
    · intro hcolons
      have hhead : ((skipBlanks after).take 2).head? = (skipBlanks after).head? := by
        rw [List.head?_take]
        rfl
      rw [hcolons] at hhead
      exact hrest.head?_ne (c := ':') (by decide) hhead.symm
    · exact absurd hopen (hrest.head?_ne (by decide))
  | namespaceTest h =>
    obtain ⟨after, hbegins, rfl⟩ := h
    refine Or.inr ⟨_, _, qualifiedName_of_prefixStar hbegins, ?_, nofun⟩
    exact fun h => nomatch (List.cons.inj (List.cons.inj h).2).1
  | typeTest htest hname hopen =>
    have hword : ∀ entry ∈ nodeTypeTests, String.ofList entry.1.toList ∈ nodeTypeNames := by decide
    exact Or.inr (hcall (hword _ htest) hname hopen)
  | instructionTest hname hopen => exact Or.inr (hcall (by decide) hname hopen)

/-- A name is read as no word that it does not begin with. -/
theorem symbol_eq_none_of_stopsAt {word other : String} {after : List Char}
    (hother : ∀ c ∈ other.toList, isNameChar c = true) (hstops : StopsAt isNameChar after)
    (hword : ¬other.toList <+: word.toList) : symbol other (word.toList ++ after) = none := by
  rw [Option.eq_none_iff_forall_ne_some]
  intro rest h
  rw [symbol_eq_some_iff] at h
  rcases List.append_eq_append_iff.mp h with ⟨more, hmore, htail⟩ | ⟨more, hmore, -⟩
  · cases more with
    | nil => exact hword ⟨[], by rw [hmore, List.append_nil, List.append_nil]⟩
    | cons c more =>
      have hc := hstops c (by rw [htail]; rfl)
      cases hc.symm.trans (hother c (by simp [hmore]))
  · exact hword ⟨more, hmore.symm⟩

/-- No word of the table stands before a longer word that begins with it. -/
theorem axes_pairwise : axes.Pairwise fun a b => ¬a.2.toList <+: b.2.toList := by
  decide

theorem isNameChar_of_mem_axes : ∀ entry ∈ axes, ∀ c ∈ entry.2.toList, isNameChar c = true :=
  fun entry hentry => (isName_of_mem_axes entry hentry).isNameChar_of_mem

/-- Of words none of which begins like a later one, the one that is written is read. -/
theorem firstOf_words {after : List Char} {found : Axis} {word : String}
    (entries : List (Axis × String))
    (hpairwise : entries.Pairwise fun a b => ¬a.2.toList <+: b.2.toList)
    (hchars : ∀ entry ∈ entries, ∀ c ∈ entry.2.toList, isNameChar c = true)
    (hmem : (found, word) ∈ entries) (htext : cs = word.toList ++ after)
    (hstops : StopsAt isNameChar after) :
    firstOf (entries.map fun (axis, word) => (axis, symbol word)) cs = some (found, after) := by
  induction entries with
  | nil => cases hmem
  | cons entry entries ih =>
    obtain ⟨hbefore, hpairwise⟩ := List.pairwise_cons.mp hpairwise
    rw [List.map_cons, firstOf_cons]
    rcases List.mem_cons.mp hmem with rfl | hmem
    · have hsymbol : symbol word cs = some after := (symbol_eq_some_iff _ _ _).mpr htext
      simp [hsymbol]
    · have hnone : symbol entry.2 cs = none := by
        rw [htext]
        exact symbol_eq_none_of_stopsAt (hchars entry (by simp)) hstops (hbefore _ hmem)
      rw [hnone]
      exact ih hpairwise (fun entry hentry => hchars entry (by simp [hentry])) hmem

theorem axis_of_reads {found : Axis} {word : String} (haxis : (found, word) ∈ axes)
    (hname : (Lexeme.name none word.toList).Reads cs cs₁)
    (hcolons : (Lexeme.symbol "::").Reads cs₁ cs₂) : axis cs = some (found, cs₂) := by
  obtain ⟨after, ⟨-, htext, hstops, -⟩, rfl⟩ := hname
  have hfirst := firstOf_words axes axes_pairwise isNameChar_of_mem_axes haxis htext hstops
  have hspaced : spaced "::" after = some cs₂ := spaced_of_reads hcolons
  simp [axis, hfirst, hspaced]

theorem axis_eq_none (h : BeginsTestName cs) : axis cs = none := by
  obtain ⟨qname, after, hname, hcolons, -⟩ := h
  rw [Option.eq_none_iff_forall_ne_some]
  rintro ⟨found, rest⟩ haxis
  obtain ⟨word, mid, -, ⟨after', hbegins, rfl⟩, ⟨tail, ⟨-, htext, -⟩, -⟩⟩ := axis_reads haxis
  cases hname.symm.trans (qualifiedName_of_begins hbegins)
  exact hcolons (by rw [htext]; rfl)

theorem selfAbbreviation_eq_none (h : cs.head? ≠ some '.') : selfAbbreviation cs = none := by
  rw [Option.eq_none_iff_forall_ne_some]
  intro rest hself
  obtain ⟨rfl, -⟩ := (selfAbbreviation_eq_some_iff _ _).mp hself
  exact h rfl

/-- Where no abbreviation begins, a step begins with an axis or with its test. -/
theorem stepHead_eq (hpoint : cs.head? ≠ some '.') (hat : (skipBlanks cs).head? ≠ some '@') :
    stepHead cs = match axis cs with
      | some (axis, rest) => (nodeTest rest).map fun (test, rest) => ((axis, test), rest)
      | none => (nodeTest cs).map fun (test, rest) => ((Axis.child, test), rest) := by
  have hparent : symbol ".." cs = none := symbol_eq_none rfl hpoint
  have hself := selfAbbreviation_eq_none hpoint
  have hattribute : spaced "@" cs = none := spaced_eq_none rfl hat
  simp only [stepHead, hparent, hself, hattribute, Option.map_none, Option.bind_none]
  rfl

theorem stepHead_of_name {after : List Char} {qname : Option (List Char) × List Char}
    (hname : qualifiedName cs = some (qname, after)) :
    stepHead cs = match axis cs with
      | some (axis, rest) => (nodeTest rest).map fun (test, rest) => ((axis, test), rest)
      | none => (nodeTest cs).map fun (test, rest) => ((Axis.child, test), rest) := by
  refine stepHead_eq (head?_ne_punctuation hname (by decide)) ?_
  rw [skipBlanks_of_qualifiedName hname]
  exact head?_ne_punctuation hname (by decide)

theorem stepHead_of_at {test : NodeTest} {mid : List Char}
    (hat : (Lexeme.symbol "@").Reads (skipBlanks cs) mid) (hread : nodeTest mid = some (test, rest)) :
    stepHead cs = some ((.attribute, test), rest) := by
  have hpoint : cs.head? ≠ some '.' := by
    intro hpoint
    obtain ⟨after, ⟨-, htext, -⟩, -⟩ := hat
    rw [skipBlanks_of_head? hpoint (by decide)] at htext
    rw [htext] at hpoint
    cases hpoint
  have hparent : symbol ".." cs = none := symbol_eq_none rfl hpoint
  simp [stepHead, hparent, selfAbbreviation_eq_none hpoint, spaced_of_reads hat, hread]

/-- Where the grammar derives the head of a step, it is read. -/
theorem stepHead_complete {layout : Layout} {axis : Axis} {test : NodeTest}
    (h : Derives layout (.head axis test) cs rest) (hrest : Apart "(:" rest) {cs' : List Char}
    (hbefore : Layout.tight.beforeStep cs') (hcs' : skipBlanks cs' = cs) :
    ∃ rest', stepHead cs' = some ((axis, test), rest') ∧ skipBlanks rest' = rest := by
  have hself : cs.head? ≠ some '@' → cs' = cs := by
    intro hat
    rcases hbefore with hself | ⟨tail, htail⟩
    · rw [← hself, hcs']
    · rw [← hcs', htail] at hat
      exact absurd rfl hat
  have htest : Apart "(" rest := hrest.mono (by decide)
  cases h with
  | axisHead haxis hname hcolons h =>
    obtain ⟨after, hbegins, -⟩ := id hname
    have hqname := qualifiedName_of_begins hbegins
    obtain rfl := hself (head?_ne_punctuation hqname (by decide))
    obtain ⟨rest', hread, hrest'⟩ := nodeTest_complete h htest
    refine ⟨rest', ?_, hrest'⟩
    rw [stepHead_of_name hqname, axis_of_reads haxis hname hcolons]
    dsimp only
    rw [hread, Option.map_some]
  | attributeHead hat h =>
    obtain ⟨rest', hread, hrest'⟩ := nodeTest_complete h htest
    exact ⟨rest', stepHead_of_at (hcs' ▸ hat) hread, hrest'⟩
  | childHead h =>
    obtain ⟨rest', hread, hrest'⟩ := nodeTest_complete h htest
    refine ⟨rest', ?_, hrest'⟩
    rcases h.test_begins hrest with hstar | hname
    · obtain rfl := hself (by rw [hstar]; decide)
      obtain ⟨tail, rfl⟩ := List.head?_eq_some_iff.mp hstar
      have haxis : Grammar.axis ('*' :: tail) = none := rfl
      have hhead : stepHead ('*' :: tail) = _ := stepHead_eq nofun nofun
      rw [hhead, haxis]
      dsimp only
      rw [hread, Option.map_some]
    · obtain ⟨qname, after, hqname, -⟩ := id hname
      obtain rfl := hself (head?_ne_punctuation hqname (by decide))
      rw [stepHead_of_name hqname, axis_eq_none hname]
      dsimp only
      rw [hread, Option.map_some]
  | selfHead h =>
    obtain ⟨after, hbegins, rfl⟩ := h
    obtain rfl := hself (by rw [hbegins.eq_append]; nofun)
    have hparent : symbol ".." cs' = none := symbol_eq_none_of_begins hbegins (c := '.') rfl rfl
    have hpoint : selfAbbreviation cs' = some after := by
      refine (selfAbbreviation_eq_some_iff _ _).mpr ⟨hbegins.eq_append, fun c hc => ?_⟩
      exact (Bool.or_eq_false_iff.mp (hbegins.endsBefore c hc)).2
    refine ⟨after, ?_, rfl⟩
    simp [stepHead, hparent, hpoint]
  | parentHead h =>
    obtain ⟨after, hbegins, rfl⟩ := h
    obtain rfl := hself (by rw [hbegins.eq_append]; nofun)
    refine ⟨after, ?_, rfl⟩
    simp [stepHead, symbol_of_begins hbegins]

end

end Grammar

end XPathQuery
