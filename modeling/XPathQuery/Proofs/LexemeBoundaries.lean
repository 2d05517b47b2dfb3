import XPathQuery.Proofs.StepCompleteness

/-!
Where lexemes begin and end. Since each is as long as it can be, no two lexemes begin at one
place of a text, and a lexeme ends wherever a blank comes after it.
-/
namespace XPathQuery

open Token Character

/-- Texts with a common beginning and different ends: one of the beginnings goes on. -/
theorem append_eq_append_cases {first first' rest rest' : List Char}
    (h : first ++ rest = first' ++ rest') :
    first = first' ∨ (∃ c more, first' = first ++ c :: more ∧ rest.head? = some c) ∨
      ∃ c more, first = first' ++ c :: more ∧ rest'.head? = some c := by
  rcases List.append_eq_append_iff.mp h with ⟨more, hmore, hrest⟩ | ⟨more, hmore, hrest⟩
  · cases more with
    | nil => exact Or.inl (by rw [hmore, List.append_nil])
    | cons c more => exact Or.inr (Or.inl ⟨c, more, hmore, by rw [hrest]; rfl⟩)
  · cases more with
    | nil => exact Or.inl (by rw [hmore, List.append_nil])
    | cons c more => exact Or.inr (Or.inr ⟨c, more, hmore, by rw [hrest]; rfl⟩)

namespace Lexeme

def isWord : Lexeme → Bool
  | name _ _ | prefixStar _ => true
  | _ => false

def isLiteral : Lexeme → Bool
  | literal _ _ => true
  | _ => false

def isQuote (c : Char) : Bool := c == '\'' || c == '"'

def StartsWith (word literal : Bool) (c : Char) : Prop :=
  isNameStart c = word ∧ isQuote c = literal ∧ isBlank c = false

instance (word literal : Bool) (c : Char) : Decidable (StartsWith word literal c) :=
  inferInstanceAs (Decidable (_ ∧ _ ∧ _))

/-- Every quote and every blank is punctuation. -/
theorem startsWith_of_not_mem {c : Char} {word : Bool} (hword : isNameStart c = word)
    (hc : c ∉ punctuation) : StartsWith word false c := by
  have hne : ∀ d ∈ punctuation, c ≠ d := fun d hd heq => hc (heq ▸ hd)
  refine ⟨hword, ?_, ?_⟩
  · simp [isQuote, hne '\'' (by decide), hne '"' (by decide)]
  · simp [isBlank, hne ' ' (by decide), hne '\t' (by decide), hne '\r' (by decide),
      hne '\n' (by decide)]

theorem startsWith_of_isNameStart {c : Char} (h : isNameStart c = true) :
    StartsWith true false c := by
  refine startsWith_of_not_mem h fun hc => ?_
  cases h.symm.trans (isNameStart_eq_false_of_mem c (by simp [hc]))

theorem startsWith_of_digitOrPoint {c : Char} (h : c.isDigit = true ∨ c = '.') :
    StartsWith false false c := by
  have hpunctuation : ∀ d ∈ punctuation, ¬(d.isDigit = true ∨ d = '.') :=
    forall_mem_of_all (by decide)
  refine startsWith_of_not_mem ?_ fun hc => hpunctuation c hc h
  rcases h with h | rfl
  · exact isNameStart_eq_false_of_isDigit h
  · exact isNameStart_eq_false_of_mem _ (by decide)

/-- The first character of a lexeme tells words and literals from the others, and is no
blank. -/
theorem Valid.exists_head {lexeme : Lexeme} (h : lexeme.Valid) (after : List Char) :
    ∃ c tail, lexeme.text ++ after = c :: tail ∧
      StartsWith lexeme.isWord lexeme.isLiteral c := by
  have hword : ∀ {name after}, IsName name →
      ∃ c tail, name ++ after = c :: tail ∧ StartsWith true false c := by
    intro name after hname
    cases name with
    | nil => cases hname
    | cons c name => exact ⟨c, name ++ after, rfl, startsWith_of_isNameStart hname.1⟩
  cases lexeme with
  | symbol spelling =>
    have hsymbols : ∀ s ∈ symbols,
        (s.toList.head?.any fun c => decide (StartsWith false false c)) = true := by
      decide +kernel
    have hstarts := hsymbols spelling h
    obtain ⟨c, tail, htail⟩ := List.exists_cons_of_ne_nil (show spelling.toList ≠ [] from
      h.text_ne_nil)
    rw [htail] at hstarts
    have hsymbol : StartsWith false false c := of_decide_eq_true hstarts
    exact ⟨c, tail ++ after, by rw [text, htail, List.cons_append], hsymbol⟩
  | name nsPrefix localPart =>
    cases nsPrefix with
    | none => exact hword h.2
    | some p =>
      rw [text, List.append_assoc]
      exact hword (h.1 p rfl)
  | prefixStar p =>
    rw [text, List.append_assoc]
    exact hword h
  | literal quote content =>
    refine ⟨quote, content ++ [quote] ++ after, rfl, ?_⟩
    have hquotes : ∀ c ∈ ['\'', '"'], StartsWith false true c :=
      forall_mem_of_all (by decide +kernel)
    exact hquotes quote (by simpa using h.1)
  | numeral digits =>
    cases digits with
    | nil => exact absurd rfl h.text_ne_nil
    | cons d digits =>
      exact ⟨d, digits ++ after, rfl,
        startsWith_of_digitOrPoint (IsNumeral.all_digitOrPoint h d List.mem_cons_self)⟩

theorem Valid.skipBlanks_append {lexeme : Lexeme} (h : lexeme.Valid) (after : List Char) :
    skipBlanks (lexeme.text ++ after) = lexeme.text ++ after := by
  obtain ⟨c, tail, htext, -, -, hblank⟩ := h.exists_head after
  rw [htext]
  exact skipBlanks_of_head? rfl hblank

/-- Only the two colons after an axis begin with a colon. -/
theorem Valid.not_beginsLocalPart {lexeme : Lexeme} (h : lexeme.Valid) (after : List Char) :
    ¬BeginsLocalPart (lexeme.text ++ after) := by
  rintro ⟨c, tail, htext, hc⟩
  obtain ⟨d, tail', hhead, hword, hliteral, -⟩ := h.exists_head after
  obtain ⟨rfl, -⟩ := List.cons.inj (hhead.symm.trans htext)
  cases lexeme with
  | symbol spelling =>
    have hcolon : ∀ s ∈ symbols, s.toList.head? = some ':' → s = "::" := by decide
    obtain ⟨d, word, hspelling⟩ := List.exists_cons_of_ne_nil (show spelling.toList ≠ [] from
      h.text_ne_nil)
    rw [text, hspelling, List.cons_append] at htext
    obtain rfl := hcolon spelling h (by rw [hspelling, (List.cons.inj htext).1]; rfl)
    obtain ⟨-, rfl⟩ := List.cons.inj hspelling
    obtain ⟨rfl, -⟩ := List.cons.inj (List.cons.inj htext).2
    rcases hc with hc | hc <;> cases hc
  | name | prefixStar => cases hword.symm.trans (isNameStart_eq_false_of_mem ':' (by decide))
  | literal => cases hliteral
  | numeral digits =>
    cases digits with
    | nil => exact absurd rfl h.text_ne_nil
    | cons d digits =>
      obtain ⟨rfl, -⟩ := List.cons.inj htext
      rcases IsNumeral.all_digitOrPoint h ':' List.mem_cons_self with hcolon | hcolon <;>
        cases hcolon

section unique

variable {cs rest rest' : List Char}

theorem Begins.unique_symbol {spelling spelling' : String}
    (h : (symbol spelling).Begins cs rest) (h' : (symbol spelling').Begins cs rest') :
    spelling = spelling' := by
  have hlonger : ∀ s ∈ symbols, ∀ t ∈ symbols, s.toList <+: t.toList →
      (t.toList.drop s.toList.length).head?.all (extends? s) = true := by decide +kernel
  have hother : ∀ {s t : String} {after : List Char} {c : Char} {more : List Char},
      s ∈ symbols → t ∈ symbols → t.toList = s.toList ++ c :: more → after.head? = some c →
      StopsAt (extends? s) after → False := by
    intro s t after c more hs ht htext hc hstops
    have hextends := hlonger s hs t ht ⟨_, htext.symm⟩
    rw [htext, List.drop_left] at hextends
    cases hextends.symm.trans (hstops c hc)
  rcases append_eq_append_cases (h.eq_append.symm.trans h'.eq_append) with
    heq | ⟨c, more, htext, hc⟩ | ⟨c, more, htext, hc⟩
  · exact String.toList_inj.mp heq
  · exact (hother h.valid h'.valid htext hc h.endsBefore).elim
  · exact (hother h'.valid h.valid htext hc h'.endsBefore).elim

theorem Begins.unique_numeral {digits digits' : List Char}
    (h : (numeral digits).Begins cs rest) (h' : (numeral digits').Begins cs rest') :
    digits = digits' := by
  have hother : ∀ {digits digits' after : List Char} {c : Char} {more : List Char},
      IsNumeral digits' → digits' = digits ++ c :: more → after.head? = some c →
      (numeral digits).EndsBefore after → False := by
    intro digits digits' after c more hdigits' htext hc hends
    have hnext := hends c hc
    rw [htext] at hdigits'
    rcases hdigits'.all_digitOrPoint c (by simp) with hdigit | rfl
    · simp [hdigit] at hnext
    · have hpoint : '.' ∈ digits := by simpa using hnext
      have hcount := hdigits'.count_point_le
      have hpos := List.count_pos_iff.mpr hpoint
      rw [List.count_append, List.count_cons_self] at hcount
      omega
  rcases append_eq_append_cases (h.eq_append.symm.trans h'.eq_append) with
    heq | ⟨c, more, htext, hc⟩ | ⟨c, more, htext, hc⟩
  · exact heq
  · exact (hother h'.valid htext hc h.endsBefore).elim
  · exact (hother h.valid htext hc h'.endsBefore).elim

theorem Begins.not_symbol_of_numeral {digits : List Char} {spelling : String}
    (h : (numeral digits).Begins cs rest) : ¬(symbol spelling).Begins cs rest' := by
  intro h'
  rcases append_eq_append_cases (h.eq_append.symm.trans h'.eq_append) with
    htext | ⟨c, more, htext, -⟩ | ⟨c, more, htext, hc⟩
  · have hwhole : (symbol spelling).Begins spelling.toList [] :=
      ⟨h'.valid, (List.append_nil _).symm, stopsAt_nil _⟩
    refine hwhole.not_isNumeral_of_symbol ?_
    change IsNumeral (symbol spelling).text
    rw [← htext]
    exact h.valid
  · obtain ⟨d, hd, hdigit⟩ := IsNumeral.exists_digit h.valid
    have hsymbols : ∀ s ∈ symbols, s.toList.all (fun d => !d.isDigit) = true := by decide
    have hmem : d ∈ (symbol spelling).text := by
      rw [htext]
      exact List.mem_append_left _ hd
    have hnone := List.all_eq_true.mp (hsymbols spelling h'.valid) d hmem
    rw [hdigit] at hnone
    cases hnone
  · have hlonger : (symbol spelling).Begins digits (c :: more) :=
      ⟨h'.valid, htext, (stopsAt_cons _ _ _).mpr (h'.endsBefore c hc)⟩
    exact hlonger.not_isNumeral_of_symbol h.valid

theorem Begins.unique_word {nsPrefix : Option (List Char)} {localPart : List Char}
    {lexeme : Lexeme} (h : (name nsPrefix localPart).Begins cs rest)
    (h' : lexeme.Begins cs rest') (hword : lexeme.isWord = true) :
    lexeme = name nsPrefix localPart := by
  have hname := qualifiedName_of_begins h
  cases lexeme with
  | name nsPrefix' localPart' =>
    cases hname.symm.trans (qualifiedName_of_begins h')
    rfl
  | prefixStar p =>
    cases hname.symm.trans (qualifiedName_of_prefixStar h')
    exact absurd ⟨_, _, rfl, Or.inr rfl⟩ h.endsBefore.2
  | _ => cases hword

theorem Begins.unique_literal {quote quote' : Char} {content content' : List Char}
    (h : (literal quote content).Begins cs rest) (h' : (literal quote' content').Begins cs rest') :
    literal quote content = literal quote' content' := by
  have hread := (literal_eq_some_iff _ _ _).mpr ⟨_, h⟩
  cases hread.symm.trans ((literal_eq_some_iff _ _ _).mpr ⟨_, h'⟩)
  obtain ⟨rfl, -⟩ := List.cons.inj (h.eq_append.symm.trans h'.eq_append)
  rfl

/-- Where a lexeme begins, no other one does. -/
theorem Begins.unique {lexeme lexeme' : Lexeme} (h : lexeme.Begins cs rest)
    (h' : lexeme'.Begins cs rest') : lexeme = lexeme' ∧ rest = rest' := by
  have hsame : lexeme = lexeme' := by
    obtain ⟨c, tail, htext, hword, hliteral, -⟩ := h.valid.exists_head rest
    obtain ⟨c', tail', htext', hword', hliteral', -⟩ := h'.valid.exists_head rest'
    rw [← h.eq_append] at htext
    rw [← h'.eq_append] at htext'
    obtain ⟨rfl, -⟩ := List.cons.inj (htext.symm.trans htext')
    have hwords := hword.symm.trans hword'
    have hliterals := hliteral.symm.trans hliteral'
    cases lexeme with
    | name nsPrefix localPart => exact (h.unique_word h' hwords.symm).symm
    | prefixStar p =>
      cases lexeme' with
      | name nsPrefix localPart => exact h'.unique_word h rfl
      | prefixStar p' =>
        cases (qualifiedName_of_prefixStar h).symm.trans (qualifiedName_of_prefixStar h')
        rfl
      | _ => cases hwords
    | literal quote content =>
      cases lexeme' with
      | literal quote' content' => exact h.unique_literal h'
      | _ => cases hliterals
    | symbol spelling =>
      cases lexeme' with
      | symbol spelling' => rw [h.unique_symbol h']
      | numeral digits => exact absurd h h'.not_symbol_of_numeral
      | literal => cases hliterals
      | _ => cases hwords
    | numeral digits =>
      cases lexeme' with
      | symbol spelling => exact absurd h' h.not_symbol_of_numeral
      | numeral digits' => rw [h.unique_numeral h']
      | literal => cases hliterals
      | _ => cases hwords
  subst hsame
  exact ⟨rfl, List.append_cancel_left (h.eq_append.symm.trans h'.eq_append)⟩

end unique

/-- A blank ends every lexeme. -/
theorem endsBefore_of_isBlank (lexeme : Lexeme) {c : Char} (hc : isBlank c = true)
    (rest : List Char) : lexeme.EndsBefore (c :: rest) := by
  have hname := isNameChar_of_isBlank hc
  cases lexeme with
  | symbol spelling =>
    rw [EndsBefore, stopsAt_cons]
    unfold extends?
    split <;> rcases eq_of_isBlank hc with rfl | rfl | rfl | rfl <;> rfl
  | name nsPrefix localPart =>
    cases nsPrefix with
    | some p => exact (stopsAt_cons _ _ _).mpr hname
    | none =>
      refine ⟨(stopsAt_cons _ _ _).mpr hname, ?_⟩
      rintro ⟨d, tail, htext, -⟩
      obtain ⟨rfl, -⟩ := List.cons.inj htext
      cases hc
  | numeral digits =>
    rw [EndsBefore, stopsAt_cons]
    rcases eq_of_isBlank hc with rfl | rfl | rfl | rfl <;> rfl
  | _ => trivial

/-- Where a lexeme ends depends on the next character, and on whether a colon there goes on
to a local part. -/
theorem EndsBefore.of_head? {lexeme : Lexeme} {rest rest' : List Char}
    (h : lexeme.EndsBefore rest) (hhead : rest'.head? = rest.head?)
    (hcolon : ¬BeginsLocalPart rest') : lexeme.EndsBefore rest' := by
  have hstops : ∀ {p}, StopsAt p rest → StopsAt p rest' := fun hstops c hc =>
    hstops c (hhead ▸ hc)
  cases lexeme with
  | symbol spelling => exact hstops h
  | name nsPrefix localPart =>
    cases nsPrefix with
    | some p => exact hstops h
    | none => exact ⟨hstops h.1, hcolon⟩
  | numeral digits => exact hstops h
  | _ => trivial

end Lexeme

end XPathQuery
