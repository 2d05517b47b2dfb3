import XPathQuery.Proofs.LexemeBoundaries

/-!
Blanks inserted between the lexemes of a text. Some lexemes are kept together with what
follows them: of each, the lexemes before it tell whether an operand ends there, so that a
slash after an operand is told from the slash that a path begins with.
-/
namespace XPathQuery

open Token Character

namespace Lexeme

def beginsStep (cs : List Char) : Bool :=
  cs.head?.any fun c => isNameStart c || c == '*' || c == '.'

/-- No step follows, so that a slash before stands for the root alone. -/
def standsAlone (after : List Char) : Bool :=
  !beginsStep after && (skipBlanks after).head? != some '@'

/-- Whether an operand ends with a lexeme, where `ended` tells whether one ended with the
lexeme before. A star or a name after an operand is an operator, a slash after an operand goes
on with a step. -/
def endsOperand (ended : Bool) (after : List Char) : Lexeme → Bool
  | symbol spelling =>
      [")", "]", ".", ".."].contains spelling ||
        !ended && (spelling == "*" || spelling == "/" && standsAlone after)
  | name none _ => !ended
  | _ => true

/-- The slash or slashes that a path begins with, where its first step comes right after. -/
def OpensPath (ended : Bool) (lexeme : Lexeme) (after : List Char) : Prop :=
  ended = false ∧ (lexeme = symbol "/" ∨ lexeme = symbol "//") ∧ beginsStep after = true

end Lexeme

/-- Blanks are inserted between lexemes of a text, none of them after the last lexeme and none
after a lexeme that is to be kept together with what follows it. -/
inductive Respaced (kept : Bool → Lexeme → List Char → Prop) :
    Bool → List Char → List Char → Prop
  | nil {ended} : Respaced kept ended [] []
  | lexeme {ended lexeme blanks blanks' cs rest rest'}
      (hbegins : Lexeme.Begins lexeme cs (blanks ++ rest)) (hinserted : blanks.Sublist blanks')
      (hblank : ∀ c ∈ blanks', isBlank c = true) (hlast : rest = [] → blanks' = blanks)
      (hkept : kept ended lexeme (blanks ++ rest) → blanks' = blanks)
      (hrest : Respaced kept (lexeme.endsOperand ended (blanks ++ rest)) rest rest') :
      Respaced kept ended cs (lexeme.text ++ (blanks' ++ rest'))

namespace Respaced

variable {kept : Bool → Lexeme → List Char → Prop} {ended : Bool} {lexeme : Lexeme}
  {cs cs' after rest : List Char}

theorem eq_nil (h : Respaced kept ended [] cs') : cs' = [] := by
  generalize hcs : ([] : List Char) = cs at h
  cases h with
  | nil => rfl
  | lexeme hbegins => exact absurd hcs.symm hbegins.ne_nil

theorem eq_nil_of_nil (h : Respaced kept ended cs []) : cs = [] := by
  generalize hcs : ([] : List Char) = cs' at h
  cases h with
  | nil => rfl
  | lexeme hbegins =>
    exact absurd (List.append_eq_nil_iff.mp hcs.symm).1 hbegins.valid.text_ne_nil

theorem head?_eq (h : Respaced kept ended cs cs') : cs'.head? = cs.head? := by
  cases h with
  | nil => rfl
  | @lexeme _ _ blanks blanks' _ rest rest' hbegins =>
    obtain ⟨c, tail, htext⟩ := List.exists_cons_of_ne_nil hbegins.valid.text_ne_nil
    rw [hbegins.eq_append, htext]
    rfl

theorem skipBlanks_eq_self (h : Respaced kept ended cs cs') :
    skipBlanks cs = cs ∧ skipBlanks cs' = cs' := by
  cases h with
  | nil => exact ⟨rfl, rfl⟩
  | lexeme hbegins =>
    rw [hbegins.eq_append]
    exact ⟨hbegins.valid.skipBlanks_append _, hbegins.valid.skipBlanks_append _⟩

theorem not_beginsLocalPart (h : Respaced kept ended cs cs') : ¬Lexeme.BeginsLocalPart cs' := by
  cases h with
  | nil =>
    rintro ⟨c, tail, htext, -⟩
    cases htext
  | lexeme hbegins => exact hbegins.valid.not_beginsLocalPart _

/-- What follows a lexeme before and after the insertion: the same lexemes, without a blank
before them only where there was none, and where the lexeme is kept together with them. -/
structure After (kept : Bool → Lexeme → List Char → Prop) (ended : Bool) (lexeme : Lexeme)
    (after after' : List Char) : Prop where
  rest : Respaced kept (lexeme.endsOperand ended after) (skipBlanks after) (skipBlanks after')
  unspaced : skipBlanks after' = after' → skipBlanks after = after
  tight : kept ended lexeme after → skipBlanks after = after → skipBlanks after' = after'
  last : after = [] → after' = []

theorem skipBlanks_append {blanks : List Char} (hblank : ∀ c ∈ blanks, isBlank c = true)
    (hrest : skipBlanks rest = rest) : skipBlanks (blanks ++ rest) = rest := by
  rw [skipBlanks, List.dropWhile_append_of_pos hblank]
  exact hrest

theorem skipBlanks_append_eq_self_iff {blanks : List Char}
    (hblank : ∀ c ∈ blanks, isBlank c = true) (hrest : skipBlanks rest = rest) :
    skipBlanks (blanks ++ rest) = blanks ++ rest ↔ blanks = [] := by
  rw [skipBlanks_append hblank hrest, List.self_eq_append_left]

/-- A lexeme that the text begins with is still the one it begins with. -/
theorem of_begins (h : Respaced kept ended cs cs') (hbegins : lexeme.Begins cs after) :
    ∃ after', lexeme.Begins cs' after' ∧ After kept ended lexeme after after' := by
  cases h with
  | nil => exact absurd rfl hbegins.ne_nil
  | @lexeme _ _ blanks blanks' _ rest rest' hbegins' hinserted hblank hlast hkept hrest =>
    obtain ⟨rfl, rfl⟩ := hbegins.unique hbegins'
    obtain ⟨hskip, hskip'⟩ := hrest.skipBlanks_eq_self
    have hblanks : ∀ c ∈ blanks, isBlank c = true := fun c hc => hblank c (hinserted.subset hc)
    refine ⟨blanks' ++ rest', ⟨hbegins.valid, rfl, ?_⟩, ?_, ?_, ?_, ?_⟩
    · cases blanks' with
      | cons c blanks' =>
        exact Lexeme.endsBefore_of_isBlank _ (hblank c List.mem_cons_self) _
      | nil =>
        obtain rfl := List.sublist_nil.mp hinserted
        exact hbegins.endsBefore.of_head? hrest.head?_eq hrest.not_beginsLocalPart
    · rw [skipBlanks_append hblanks hskip, skipBlanks_append hblank hskip']
      exact hrest
    · rw [skipBlanks_append_eq_self_iff hblanks hskip, skipBlanks_append_eq_self_iff hblank hskip']
      rintro rfl
      exact List.sublist_nil.mp hinserted
    · intro hkeep
      rw [skipBlanks_append_eq_self_iff hblanks hskip, skipBlanks_append_eq_self_iff hblank hskip']
      rintro rfl
      exact hkept hkeep
    · intro hnil
      obtain ⟨rfl, rfl⟩ := List.append_eq_nil_iff.mp hnil
      rw [hlast rfl, hrest.eq_nil]
      rfl

theorem of_reads (h : Respaced kept ended cs cs') (hreads : lexeme.Reads cs rest)
    (ended' : Bool) (hended : ∀ after, lexeme.endsOperand ended after = ended') :
    ∃ rest', lexeme.Reads cs' rest' ∧ Respaced kept ended' rest rest' := by
  obtain ⟨after, hbegins, rfl⟩ := hreads
  obtain ⟨after', hbegins', hafter⟩ := h.of_begins hbegins
  have hrest := hafter.rest
  rw [hended after] at hrest
  exact ⟨skipBlanks after', hbegins'.reads, hrest⟩

/-- Blanks after a lexeme that had none after it. -/
theorem insert {rest' : List Char} (blanks : List Char) {ended' : Bool}
    (hbegins : lexeme.Begins cs rest) (hblank : ∀ c ∈ blanks, isBlank c = true)
    (hlast : rest = [] → blanks = []) (hkept : kept ended lexeme rest → blanks = [])
    (hended : lexeme.endsOperand ended rest = ended') (hrest : Respaced kept ended' rest rest') :
    Respaced kept ended cs (lexeme.text ++ (blanks ++ rest')) := by
  subst hended
  have hnone : lexeme.Begins cs ([] ++ rest) := hbegins
  exact .lexeme hnone (List.nil_sublist _) hblank hlast hkept hrest

end Respaced

def InLexemes (kept : Bool → Lexeme → List Char → Prop) (cs : List Char) : Prop :=
  ∀ ended, Respaced kept ended cs cs

theorem Lexeme.Reads.inLexemes {kept : Bool → Lexeme → List Char → Prop} {lexeme : Lexeme}
    {cs rest : List Char} (h : lexeme.Reads cs rest) (hrest : InLexemes kept rest) :
    InLexemes kept cs := by
  obtain ⟨after, hbegins, rfl⟩ := h
  intro ended
  have hsplit : after = after.takeWhile isBlank ++ skipBlanks after :=
    List.takeWhile_append_dropWhile.symm
  have hblank : ∀ c ∈ after.takeWhile isBlank, isBlank c = true := fun c hc =>
    List.mem_takeWhile_imp hc
  rw [hsplit] at hbegins
  have hsame := Respaced.lexeme hbegins (List.Sublist.refl _) hblank (fun _ => rfl)
    (fun _ => rfl) (hrest (lexeme.endsOperand ended _))
  rwa [← hbegins.eq_append] at hsame

end XPathQuery
