import XPathQuery.Expr.Token
import Mathlib.Data.List.Infix
import Mathlib.Data.List.TakeWhile

/-!
Lexemes of expressions. A lexeme is a symbol, a name with or without a prefix, a prefix
with a star, a literal or a numeral, and it is as long as the text allows. The readers of
tokens take exactly such lexemes, except that the numeral at the very end of a text is
read without its fraction.
-/
namespace XPathQuery

open Token Character

def StopsAt (p : Char → Bool) (rest : List Char) : Prop :=
  ∀ c, rest.head? = some c → p c = false

theorem stopsAt_nil (p : Char → Bool) : StopsAt p [] := by
  intro c h
  cases h

@[simp]
theorem stopsAt_cons (p : Char → Bool) (c : Char) (rest : List Char) :
    StopsAt p (c :: rest) ↔ p c = false := by
  simp [StopsAt]

theorem stopsAt_dropWhile (p : Char → Bool) (cs : List Char) : StopsAt p (cs.dropWhile p) := by
  intro c h
  have hhead := List.head?_dropWhile_not p cs
  rwa [h] at hhead

/-- The longest run of characters of a kind ends where the text stops going on with them. -/
theorem span_exact (p : Char → Bool) (read rest : List Char) (hread : ∀ c ∈ read, p c = true)
    (hrest : StopsAt p rest) :
    (read ++ rest).takeWhile p = read ∧ (read ++ rest).dropWhile p = rest := by
  rw [List.takeWhile_append_of_pos hread, List.dropWhile_append_of_pos hread]
  cases rest with
  | nil => simp
  | cons c rest => simp [(stopsAt_cons p c rest).mp hrest]

/-- A condition on the characters of a list, checked on each of them. -/
theorem forall_mem_of_all {p : Char → Prop} [DecidablePred p] {cs : List Char}
    (h : cs.all (fun c => decide (p c)) = true) : ∀ c ∈ cs, p c :=
  fun c hc => of_decide_eq_true (List.all_eq_true.mp h c hc)

namespace Token

theorem skipBlanks_suffix (cs : List Char) : skipBlanks cs <:+ cs :=
  List.dropWhile_suffix isBlank

theorem stopsAt_skipBlanks (cs : List Char) : StopsAt isBlank (skipBlanks cs) :=
  stopsAt_dropWhile isBlank cs

theorem skipBlanks_eq_self {cs : List Char} (h : StopsAt isBlank cs) : skipBlanks cs = cs := by
  cases cs with
  | nil => rfl
  | cons c cs => simp [skipBlanks, (stopsAt_cons isBlank c cs).mp h]

theorem skipBlanks_of_head? {cs : List Char} {c : Char} (h : cs.head? = some c)
    (hc : isBlank c = false) : skipBlanks cs = cs := by
  apply skipBlanks_eq_self
  intro d hd
  rwa [← Option.some.inj (h.symm.trans hd)]

@[simp]
theorem skipBlanks_skipBlanks (cs : List Char) : skipBlanks (skipBlanks cs) = skipBlanks cs :=
  skipBlanks_eq_self (stopsAt_skipBlanks cs)

theorem symbol_eq_some_iff (word : String) (cs rest : List Char) :
    symbol word cs = some rest ↔ cs = word.toList ++ rest := by
  rw [symbol, List.isPrefixOf?_eq_some_iff_append_eq, eq_comm]

theorem spaced_eq_some_iff (word : String) (cs rest : List Char) :
    spaced word cs = some rest ↔
      ∃ after, skipBlanks cs = word.toList ++ after ∧ skipBlanks after = rest := by
  simp only [spaced, Option.map_eq_some_iff, symbol_eq_some_iff]

/-- A text that is refused when a character of some kind follows it. -/
theorem unlessFollowed_eq_some_iff (p : Char → Bool) (found : Option (List Char))
    (rest : List Char) :
    (match found with
      | some (c :: rest) => if p c then none else some (c :: rest)
      | other => other) = some rest ↔ found = some rest ∧ StopsAt p rest := by
  cases found with
  | none => simp
  | some after =>
    cases after with
    | nil =>
      constructor
      · rintro ⟨⟩
        exact ⟨rfl, stopsAt_nil _⟩
      · exact fun h => h.1
    | cons c after =>
      by_cases hc : p c = true
      · simp only [if_pos hc, reduceCtorEq, Option.some.injEq, false_iff, not_and]
        rintro rfl
        simp [hc]
      · simp only [if_neg hc, Option.some.injEq]
        constructor
        · rintro rfl
          exact ⟨rfl, by simpa using hc⟩
        · exact fun h => h.1

theorem keyword_eq_some_iff (word : String) (cs rest : List Char) :
    keyword word cs = some rest ↔ cs = word.toList ++ rest ∧ StopsAt isNameChar rest := by
  rw [← symbol_eq_some_iff]
  exact unlessFollowed_eq_some_iff isNameChar (symbol word cs) rest

@[simp]
theorem firstOf_nil {α : Type} (cs : List Char) : firstOf ([] : List (α × _)) cs = none := rfl

@[simp]
theorem firstOf_cons {α : Type} (a : α) (spelling : List Char → Option (List Char))
    (more : List (α × (List Char → Option (List Char)))) (cs : List Char) :
    firstOf ((a, spelling) :: more) cs =
      ((spelling cs).map fun rest => (a, rest)).or (firstOf more cs) := by
  rw [firstOf, List.findSome?_cons]
  cases h : spelling cs with
  | none => simp [h, firstOf]
  | some rest => simp [h]

end Token

def IsName : List Char → Prop
  | [] => False
  | c :: cs => isNameStart c = true ∧ ∀ d ∈ cs, isNameChar d = true

theorem IsName.ne_nil {cs : List Char} (h : IsName cs) : cs ≠ [] := by
  rintro rfl
  exact h

theorem isNameChar_of_isNameStart {c : Char} (h : isNameStart c = true) :
    isNameChar c = true := by
  rcases Bool.or_eq_true_iff.mp h with h | h <;> simp [isNameChar, h]

theorem IsName.isNameChar_of_mem {cs : List Char} (h : IsName cs) :
    ∀ c ∈ cs, isNameChar c = true := by
  cases cs with
  | nil => exact nofun
  | cons c cs => exact List.forall_mem_cons.mpr ⟨isNameChar_of_isNameStart h.1, h.2⟩

instance : DecidablePred IsName
  | [] => inferInstanceAs (Decidable False)
  | c :: cs => decidable_of_iff (isNameStart c = true ∧ cs.all isNameChar = true)
      (and_congr_right fun _ => List.all_eq_true)

def IsDigits (cs : List Char) : Prop := cs ≠ [] ∧ ∀ c ∈ cs, c.isDigit = true

inductive IsNumeral : List Char → Prop
  | whole {whole : List Char} (hwhole : IsDigits whole) : IsNumeral whole
  | point {whole : List Char} (hwhole : IsDigits whole) : IsNumeral (whole ++ ['.'])
  | fraction {whole fraction : List Char} (hwhole : IsDigits whole)
      (hfraction : IsDigits fraction) : IsNumeral (whole ++ '.' :: fraction)
  | bare {fraction : List Char} (hfraction : IsDigits fraction) : IsNumeral ('.' :: fraction)

theorem not_mem_point {cs : List Char} (h : ∀ c ∈ cs, c.isDigit = true) : '.' ∉ cs := by
  intro hmem
  simpa using h '.' hmem

theorem IsNumeral.all_digitOrPoint {cs : List Char} (h : IsNumeral cs) :
    ∀ c ∈ cs, c.isDigit = true ∨ c = '.' := by
  intro c hc
  cases h with
  | whole hwhole => exact Or.inl (hwhole.2 c hc)
  | point hwhole =>
    rcases List.mem_append.mp hc with hc | hc
    · exact Or.inl (hwhole.2 c hc)
    · exact Or.inr (List.mem_singleton.mp hc)
  | fraction hwhole hfraction =>
    rcases List.mem_append.mp hc with hc | hc
    · exact Or.inl (hwhole.2 c hc)
    · rcases List.mem_cons.mp hc with hc | hc
      · exact Or.inr hc
      · exact Or.inl (hfraction.2 c hc)
  | bare hfraction =>
    rcases List.mem_cons.mp hc with hc | hc
    · exact Or.inr hc
    · exact Or.inl (hfraction.2 c hc)

theorem IsNumeral.count_point_le {cs : List Char} (h : IsNumeral cs) : cs.count '.' ≤ 1 := by
  have hdigits : ∀ {digits}, IsDigits digits → digits.count '.' = 0 := fun hdigits =>
    List.count_eq_zero.mpr (not_mem_point hdigits.2)
  cases h with
  | whole hwhole => simp [hdigits hwhole]
  | point hwhole => simp [hdigits hwhole]
  | fraction hwhole hfraction => simp [hdigits hwhole, hdigits hfraction]
  | bare hfraction => simp [hdigits hfraction]

theorem IsNumeral.exists_digit {cs : List Char} (h : IsNumeral cs) :
    ∃ c ∈ cs, c.isDigit = true := by
  have hdigits : ∀ {digits}, IsDigits digits → ∃ c ∈ digits, c.isDigit = true := by
    intro digits hdigits
    obtain ⟨c, hc⟩ := List.exists_mem_of_ne_nil _ hdigits.1
    exact ⟨c, hc, hdigits.2 c hc⟩
  cases h with
  | whole hwhole => exact hdigits hwhole
  | point hwhole | fraction hwhole _ =>
    obtain ⟨c, hc, hdigit⟩ := hdigits hwhole
    exact ⟨c, List.mem_append_left _ hc, hdigit⟩
  | bare hfraction =>
    obtain ⟨c, hc, hdigit⟩ := hdigits hfraction
    exact ⟨c, List.mem_cons_of_mem _ hc, hdigit⟩

theorem isNameStart_eq_false_of_isDigit {c : Char} (h : c.isDigit = true) :
    isNameStart c = false := by
  have hlow : c.toNat < 0x41 := by
    simp only [Char.isDigit, Bool.and_eq_true, decide_eq_true_eq] at h
    have hnine : c.toNat ≤ '9'.toNat := UInt32.le_iff_toNat_le.mp h.2
    exact Nat.lt_of_le_of_lt hnine (by decide)
  have hletter : Character.isLetter c = false := by
    rw [Character.isLetter, Character.letterRanges, Character.inRanges, if_pos hlow]
  have hline : c ≠ '_' := by
    rintro rfl
    cases h
  simp [isNameStart, hletter, hline]

/-- The blanks, the quotes and the characters of symbols, but for those that names go on with. -/
def punctuation : List Char := " \t\r\n()[]@,:/|+=!<>*'\"".toList

theorem isNameStart_eq_false_of_mem :
    ∀ c ∈ '.' :: '-' :: punctuation, isNameStart c = false :=
  forall_mem_of_all (by decide +kernel)

theorem isNameChar_eq_false_of_mem : ∀ c ∈ punctuation, isNameChar c = false :=
  forall_mem_of_all (by decide +kernel)

theorem stopsAt_isNameChar_cons {c : Char} {rest : List Char} (hc : c ∈ punctuation) :
    StopsAt isNameChar (c :: rest) :=
  (stopsAt_cons _ _ _).mpr (isNameChar_eq_false_of_mem c hc)

inductive Lexeme
  | symbol (spelling : String)
  | name (nsPrefix : Option (List Char)) (localPart : List Char)
  | prefixStar (nsPrefix : List Char)
  | literal (quote : Char) (text : List Char)
  | numeral (digits : List Char)

namespace Lexeme

def text : Lexeme → List Char
  | symbol spelling => spelling.toList
  | name none localPart => localPart
  | name (some nsPrefix) localPart => nsPrefix ++ ':' :: localPart
  | prefixStar nsPrefix => nsPrefix ++ [':', '*']
  | literal quote text => quote :: text ++ [quote]
  | numeral digits => digits

def symbols : List String :=
  ["(", ")", "[", "]", ".", "..", "@", ",", "::", "/", "//", "|", "+", "-", "=", "!=", "<", "<=",
    ">", ">=", "*"]

def Valid : Lexeme → Prop
  | symbol spelling => spelling ∈ symbols
  | name nsPrefix localPart => (∀ p, nsPrefix = some p → IsName p) ∧ IsName localPart
  | prefixStar nsPrefix => IsName nsPrefix
  | literal quote text => (quote = '\'' ∨ quote = '"') ∧ quote ∉ text
  | numeral digits => IsNumeral digits

/-- Whether a symbol would be another lexeme together with the next character. -/
def extends? (spelling : String) (next : Char) : Bool :=
  match spelling with
  | "/" => next == '/'
  | "." => next == '.' || next.isDigit
  | "<" => next == '='
  | ">" => next == '='
  | _ => false

def wholeSymbols : List String :=
  ["(", ")", "[", "]", "..", "@", ",", "::", "//", "|", "+", "-", "=", "!=", "<=", ">=", "*"]

theorem mem_symbols_of_whole : ∀ word ∈ wholeSymbols, word ∈ symbols := by decide

theorem extends?_eq_false_of_whole {word : String} (h : word ∈ wholeSymbols) (c : Char) :
    extends? word c = false := by
  simp only [wholeSymbols, List.mem_cons, List.not_mem_nil, or_false] at h
  rcases h with rfl | rfl | rfl | rfl | rfl | rfl | rfl | rfl | rfl | rfl | rfl | rfl | rfl |
    rfl | rfl | rfl | rfl <;> rfl

def BeginsLocalPart (rest : List Char) : Prop :=
  ∃ c cs, rest = ':' :: c :: cs ∧ (isNameStart c = true ∨ c = '*')

def EndsBefore : Lexeme → List Char → Prop
  | symbol spelling, rest => StopsAt (extends? spelling) rest
  | name none _, rest => StopsAt isNameChar rest ∧ ¬BeginsLocalPart rest
  | name (some _) _, rest => StopsAt isNameChar rest
  | numeral digits, rest => StopsAt (fun c => c.isDigit || (c == '.' && !digits.contains '.')) rest
  | _, _ => True

structure Begins (lexeme : Lexeme) (cs rest : List Char) : Prop where
  valid : lexeme.Valid
  eq_append : cs = lexeme.text ++ rest
  endsBefore : lexeme.EndsBefore rest

/-- A text begins with a lexeme; `rest` is what follows it and the blanks after it. -/
def Reads (lexeme : Lexeme) (cs rest : List Char) : Prop :=
  ∃ after, lexeme.Begins cs after ∧ rest = skipBlanks after

theorem Begins.suffix {lexeme : Lexeme} {cs rest : List Char} (h : lexeme.Begins cs rest) :
    rest <:+ cs := ⟨lexeme.text, h.eq_append.symm⟩

theorem Valid.text_ne_nil {lexeme : Lexeme} (h : lexeme.Valid) : lexeme.text ≠ [] := by
  cases lexeme with
  | symbol spelling =>
    have hsymbols : ∀ s ∈ symbols, s.toList ≠ [] := by decide
    exact hsymbols spelling h
  | name nsPrefix localPart =>
    cases nsPrefix with
    | none => exact h.2.ne_nil
    | some p => simp [text]
  | prefixStar p => simp [text]
  | literal quote content => exact List.cons_ne_nil _ _
  | numeral digits =>
    cases h with
    | whole hwhole => exact hwhole.1
    | point _ | fraction _ _ | bare _ => simp [text]

theorem Begins.ne_nil {lexeme : Lexeme} {cs rest : List Char} (h : lexeme.Begins cs rest) :
    cs ≠ [] := by
  rw [h.eq_append]
  exact List.append_ne_nil_of_left_ne_nil h.valid.text_ne_nil rest

theorem Reads.ne_nil {lexeme : Lexeme} {cs rest : List Char} (h : lexeme.Reads cs rest) :
    cs ≠ [] := by
  obtain ⟨after, hbegins, -⟩ := h
  exact hbegins.ne_nil

theorem Begins.reads {lexeme : Lexeme} {cs rest : List Char} (h : lexeme.Begins cs rest) :
    lexeme.Reads cs (skipBlanks rest) := ⟨rest, h, rfl⟩

theorem Reads.suffix {lexeme : Lexeme} {cs rest : List Char} (h : lexeme.Reads cs rest) :
    rest <:+ cs := by
  obtain ⟨after, hbegins, rfl⟩ := h
  exact (skipBlanks_suffix after).trans hbegins.suffix

theorem Reads.length_lt {lexeme : Lexeme} {cs rest : List Char} (h : lexeme.Reads cs rest) :
    rest.length < cs.length := by
  obtain ⟨after, hbegins, rfl⟩ := h
  have hblanks := (skipBlanks_suffix after).length_le
  have htext := List.length_pos_of_ne_nil hbegins.valid.text_ne_nil
  rw [hbegins.eq_append, List.length_append]
  omega

theorem Reads.skipBlanks_rest {lexeme : Lexeme} {cs rest : List Char} (h : lexeme.Reads cs rest) :
    skipBlanks rest = rest := by
  obtain ⟨after, -, rfl⟩ := h
  exact skipBlanks_skipBlanks after

def Opens : Lexeme → Prop
  | symbol spelling => spelling ∈ ["*", ".", "..", "@", "/", "//", "("]
  | _ => True

def opensLexeme (c : Char) : Bool :=
  isNameStart c || c.isDigit || "*.@/('\"".toList.contains c

theorem opensLexeme_eq_false_of_mem :
    ∀ c ∈ " \t\r\n)],:|+-=!<>".toList, opensLexeme c = false :=
  forall_mem_of_all (by decide +kernel)

theorem Begins.opens {lexeme : Lexeme} {cs rest : List Char} (h : lexeme.Begins cs rest)
    (hopens : lexeme.Opens) : ∃ c tail, cs = c :: tail ∧ opensLexeme c = true := by
  have hname : ∀ name after, IsName name → ∃ c tail, name ++ after = c :: tail ∧
      opensLexeme c = true := by
    intro name after hname
    cases name with
    | nil => cases hname
    | cons c name => exact ⟨c, name ++ after, rfl, by simp [opensLexeme, hname.1]⟩
  have hdigits : ∀ digits after, IsDigits digits → ∃ c tail, digits ++ after = c :: tail ∧
      opensLexeme c = true := by
    intro digits after hdigits
    cases digits with
    | nil => exact absurd rfl hdigits.1
    | cons c digits => exact ⟨c, digits ++ after, rfl, by simp [opensLexeme, hdigits.2 c]⟩
  obtain ⟨hvalid, rfl, -⟩ := h
  cases lexeme with
  | symbol spelling =>
    simp only [Opens, List.mem_cons, List.not_mem_nil, or_false] at hopens
    rcases hopens with rfl | rfl | rfl | rfl | rfl | rfl | rfl <;>
      exact ⟨_, _, rfl, by decide +kernel⟩
  | name nsPrefix localPart =>
    cases nsPrefix with
    | none => exact hname _ _ hvalid.2
    | some p =>
      rw [text, List.append_assoc]
      exact hname _ _ (hvalid.1 p rfl)
  | prefixStar p =>
    rw [text, List.append_assoc]
    exact hname _ _ hvalid
  | literal quote content =>
    refine ⟨quote, content ++ [quote] ++ rest, rfl, ?_⟩
    rcases hvalid.1 with rfl | rfl <;> decide +kernel
  | numeral digits =>
    cases hvalid with
    | whole hwhole => exact hdigits _ _ hwhole
    | point hwhole | fraction hwhole _ =>
      rw [text, List.append_assoc]
      exact hdigits _ _ hwhole
    | bare _ => exact ⟨_, _, rfl, by decide +kernel⟩

theorem Begins.not_isNumeral_of_name {name after : List Char} (hname : IsName name) :
    ¬IsNumeral (name ++ after) := by
  intro hcs
  cases name with
  | nil => exact hname
  | cons c name =>
    rcases hcs.all_digitOrPoint c (by simp) with hdigit | rfl
    · cases (isNameStart_eq_false_of_isDigit hdigit).symm.trans hname.1
    · cases hname.1

/-- The point that is a symbol is followed by no digit, and the other symbols have no part
in a numeral. -/
theorem Begins.not_isNumeral_of_symbol {spelling : String} {cs rest : List Char}
    (h : (symbol spelling).Begins cs rest) : ¬IsNumeral cs := by
  intro hcs
  have hpoints : ∀ s ∈ symbols, s = "." ∨ s = ".." ∨
      s.toList.all (fun c => decide ¬(c.isDigit = true ∨ c = '.')) = true := by decide
  have hchar := hcs.all_digitOrPoint
  obtain ⟨hvalid, rfl, hends⟩ := h
  rcases hpoints spelling hvalid with rfl | rfl | hall
  · cases rest with
    | nil =>
      obtain ⟨digit, hdigit, hisDigit⟩ := hcs.exists_digit
      obtain rfl : digit = '.' := by simpa [text] using hdigit
      cases hisDigit
    | cons d rest =>
      have hnext := (stopsAt_cons _ _ _).mp hends
      simp only [extends?, Bool.or_eq_false_iff, beq_eq_false_iff_ne] at hnext
      rcases hchar d (by simp) with hd | hd
      · cases hd.symm.trans hnext.2
      · exact hnext.1 hd
  · have hcount := hcs.count_point_le
    simp [text] at hcount
  · obtain ⟨c, hc⟩ := List.exists_mem_of_ne_nil _ hvalid.text_ne_nil
    exact forall_mem_of_all hall c hc (hchar c (List.mem_append_left _ hc))

/-- A text that is a numeral is one lexeme. -/
theorem Begins.of_numeral {lexeme : Lexeme} {cs rest : List Char}
    (h : lexeme.Begins cs rest) (hcs : IsNumeral cs) : lexeme = .numeral cs ∧ rest = [] := by
  have hchar := hcs.all_digitOrPoint
  cases lexeme with
  | symbol spelling => exact absurd hcs h.not_isNumeral_of_symbol
  | name nsPrefix localPart =>
    obtain ⟨hvalid, rfl, -⟩ := h
    cases nsPrefix with
    | none => exact absurd hcs (Begins.not_isNumeral_of_name hvalid.2)
    | some p =>
      rw [text, List.append_assoc] at hcs
      exact absurd hcs (Begins.not_isNumeral_of_name (hvalid.1 p rfl))
  | prefixStar p =>
    obtain ⟨hvalid, rfl, -⟩ := h
    rw [text, List.append_assoc] at hcs
    exact absurd hcs (Begins.not_isNumeral_of_name hvalid)
  | literal quote content =>
    obtain ⟨hvalid, rfl, -⟩ := h
    have hquote := hchar quote (by simp [text])
    rcases hvalid.1 with rfl | rfl <;> simp at hquote
  | numeral digits =>
    obtain ⟨-, rfl, hends⟩ := h
    cases rest with
    | nil =>
      rw [text, List.append_nil]
      exact ⟨rfl, rfl⟩
    | cons c rest =>
      exfalso
      have hnext := (stopsAt_cons _ _ _).mp hends
      rcases hchar c (by simp) with hc | rfl
      · simp [hc] at hnext
      · have hmem : '.' ∈ digits := by simpa using hnext
        have hpoint := List.count_pos_iff.mpr hmem
        have hcount := hcs.count_point_le
        rw [text, List.count_append, List.count_cons_self] at hcount
        omega

end Lexeme

namespace Token

theorem name_eq_some_iff (cs read rest : List Char) :
    name cs = some (read, rest) ↔ IsName read ∧ cs = read ++ rest ∧ StopsAt isNameChar rest := by
  constructor
  · intro h
    cases cs with
    | nil => cases h
    | cons c cs =>
      by_cases hc : isNameStart c = true
      · simp only [name, if_pos hc, Option.some.injEq, Prod.mk.injEq] at h
        obtain ⟨rfl, rfl⟩ := h
        refine ⟨⟨hc, fun d hd => List.mem_takeWhile_imp hd⟩, ?_, stopsAt_dropWhile _ _⟩
        rw [List.cons_append, List.takeWhile_append_dropWhile]
      · simp [name, hc] at h
  · rintro ⟨hread, rfl, hrest⟩
    cases read with
    | nil => cases hread
    | cons c read =>
      obtain ⟨hc, hread⟩ := hread
      obtain ⟨htake, hdrop⟩ := span_exact isNameChar read rest hread hrest
      rw [List.cons_append, name, if_pos hc, htake, hdrop]

theorem colon_name_eq_none_iff (after : List Char) :
    (symbol ":" after).bind name = none ↔
      ∀ c tail, after = ':' :: c :: tail → isNameStart c = false := by
  cases after with
  | nil =>
    have hsymbol : symbol ":" [] = none := rfl
    simp [hsymbol]
  | cons d after =>
    by_cases hd : d = ':'
    · subst hd
      have hsymbol : symbol ":" (':' :: after) = some after :=
        (symbol_eq_some_iff _ _ _).mpr rfl
      rw [hsymbol]
      cases after with
      | nil => simp [name]
      | cons c tail => simp [name]
    · have hsymbol : symbol ":" (d :: after) = none := by
        rw [Option.eq_none_iff_forall_ne_some]
        intro tail h
        exact hd (List.cons.inj ((symbol_eq_some_iff _ _ _).mp h)).1
      simp [hsymbol, hd]

theorem qualifiedName_of_prefix {p localPart rest : List Char} (hp : IsName p)
    (hlocal : IsName localPart) (hstops : StopsAt isNameChar rest) :
    qualifiedName (p ++ ':' :: (localPart ++ rest)) = some ((some p, localPart), rest) := by
  have hfirst : name (p ++ ':' :: (localPart ++ rest)) = some (p, ':' :: (localPart ++ rest)) :=
    (name_eq_some_iff _ _ _).mpr ⟨hp, rfl, stopsAt_isNameChar_cons (by decide)⟩
  have hsymbol : symbol ":" (':' :: (localPart ++ rest)) = some (localPart ++ rest) :=
    (symbol_eq_some_iff _ _ _).mpr rfl
  have hsecond : name (localPart ++ rest) = some (localPart, rest) :=
    (name_eq_some_iff _ _ _).mpr ⟨hlocal, rfl, hstops⟩
  simp [qualifiedName, hfirst, hsymbol, hsecond]

/-- A name is read without a prefix when no local part comes after it. -/
theorem qualifiedName_eq_some_iff (cs rest : List Char) (nsPrefix : Option (List Char))
    (localPart : List Char) :
    qualifiedName cs = some ((nsPrefix, localPart), rest) ↔
      (∀ p, nsPrefix = some p → IsName p) ∧ IsName localPart ∧
        cs = (Lexeme.name nsPrefix localPart).text ++ rest ∧ StopsAt isNameChar rest ∧
        (nsPrefix = none → ∀ c tail, rest = ':' :: c :: tail → isNameStart c = false) := by
  constructor
  · intro h
    cases hfirst : name cs with
    | none => simp [qualifiedName, hfirst] at h
    | some found =>
      obtain ⟨first, after⟩ := found
      obtain ⟨hname, rfl, hstops⟩ := (name_eq_some_iff _ _ _).mp hfirst
      cases hsecond : (symbol ":" after).bind name with
      | none =>
        simp only [qualifiedName, hfirst, hsecond, Option.some.injEq, Prod.mk.injEq] at h
        obtain ⟨⟨rfl, rfl⟩, rfl⟩ := h
        exact ⟨nofun, hname, rfl, hstops, fun _ => (colon_name_eq_none_iff after).mp hsecond⟩
      | some found =>
        obtain ⟨second, tail⟩ := found
        simp only [qualifiedName, hfirst, hsecond, Option.some.injEq, Prod.mk.injEq] at h
        obtain ⟨⟨rfl, rfl⟩, rfl⟩ := h
        obtain ⟨middle, hsymbol, hname'⟩ := Option.bind_eq_some_iff.mp hsecond
        obtain ⟨hlocal, rfl, hend⟩ := (name_eq_some_iff _ _ _).mp hname'
        rw [(symbol_eq_some_iff _ _ _).mp hsymbol]
        refine ⟨?_, hlocal, ?_, hend, nofun⟩
        · rintro p ⟨⟩
          exact hname
        · simp [Lexeme.text]
  · rintro ⟨hnames, hlocal, rfl, hstops, hlast⟩
    cases nsPrefix with
    | none =>
      have hfirst : name (localPart ++ rest) = some (localPart, rest) :=
        (name_eq_some_iff _ _ _).mpr ⟨hlocal, rfl, hstops⟩
      have hcolon := (colon_name_eq_none_iff rest).mpr (hlast rfl)
      simp only [qualifiedName, Lexeme.text, hfirst, hcolon]
    | some p =>
      rw [Lexeme.text, List.append_assoc]
      exact qualifiedName_of_prefix (hnames p rfl) hlocal hstops

theorem literal_eq_some_iff (cs text rest : List Char) :
    literal cs = some (text, rest) ↔ ∃ quote, (Lexeme.literal quote text).Begins cs rest := by
  constructor
  · intro h
    cases cs with
    | nil => cases h
    | cons quote cs =>
      simp only [literal] at h
      split at h
      · rename_i hquote
        split at h
        · cases h
        · rename_i closing after hdrop
          obtain ⟨rfl, rfl⟩ := Prod.mk.inj (Option.some.inj h)
          have hclosing : closing = quote := by
            have hstops := stopsAt_dropWhile (· != quote) cs
            rw [hdrop, stopsAt_cons] at hstops
            simpa using hstops
          refine ⟨quote, ⟨⟨by simpa using hquote, ?_⟩, ?_, trivial⟩⟩
          · intro hmem
            simpa using List.mem_takeWhile_imp hmem
          · have hsplit := List.takeWhile_append_dropWhile (p := (· != quote)) (l := cs)
            rw [hdrop, hclosing] at hsplit
            simp [Lexeme.text, hsplit]
      · cases h
  · rintro ⟨quote, ⟨hquote, hmem⟩, rfl, -⟩
    have hread : ∀ c ∈ text, (c != quote) = true := by
      intro c hc
      simp only [bne_iff_ne, ne_eq]
      rintro rfl
      exact hmem hc
    obtain ⟨htake, hdrop⟩ := span_exact (· != quote) text (quote :: rest) hread (by simp)
    have hquote : (quote == '\'' || quote == '"') = true := by simpa using hquote
    simp only [Lexeme.text, List.cons_append, List.append_assoc, List.nil_append, literal,
      if_pos hquote, htake, hdrop]

theorem numeral_begins_point {whole tail : List Char} (hwhole : IsDigits whole) :
    (Lexeme.numeral (whole ++ '.' :: tail.takeWhile Char.isDigit)).Begins
      (whole ++ '.' :: tail) (tail.dropWhile Char.isDigit) := by
  have hfraction : ∀ c ∈ tail.takeWhile Char.isDigit, c.isDigit = true :=
    fun c hc => List.mem_takeWhile_imp hc
  refine ⟨?_, by simp [Lexeme.text, List.takeWhile_append_dropWhile], ?_⟩
  · by_cases hempty : tail.takeWhile Char.isDigit = []
    · rw [hempty]
      exact .point hwhole
    · exact .fraction hwhole ⟨hempty, hfraction⟩
  · simpa [Lexeme.EndsBefore] using stopsAt_dropWhile Char.isDigit tail

theorem numeral_begins_bare {tail : List Char} (hne : tail.takeWhile Char.isDigit ≠ []) :
    (Lexeme.numeral ('.' :: tail.takeWhile Char.isDigit)).Begins ('.' :: tail)
      (tail.dropWhile Char.isDigit) := by
  have hfraction : ∀ c ∈ tail.takeWhile Char.isDigit, c.isDigit = true :=
    fun c hc => List.mem_takeWhile_imp hc
  refine ⟨.bare ⟨hne, hfraction⟩, by simp [Lexeme.text, List.takeWhile_append_dropWhile], ?_⟩
  simpa [Lexeme.EndsBefore] using stopsAt_dropWhile Char.isDigit tail

theorem numeral_begins_whole {whole tail : List Char} (hwhole : IsDigits whole)
    (hstops : StopsAt Char.isDigit tail) (hpoint : ∀ cs, tail ≠ '.' :: cs) :
    (Lexeme.numeral whole).Begins (whole ++ tail) tail := by
  refine ⟨.whole hwhole, rfl, ?_⟩
  intro c hc
  obtain ⟨cs, rfl⟩ := List.head?_eq_some_iff.mp hc
  have hdigit := (stopsAt_cons _ _ _).mp hstops
  have hnotPoint : c ≠ '.' := fun h => hpoint cs (by rw [h])
  simp [hdigit, hnotPoint]

/-- What is read of a numeral is all of it, or at the end of the text the whole number
before its point. -/
theorem digits_eq_some (cs digits rest : List Char) (h : Token.digits cs = some (digits, rest)) :
    ∃ read, (Lexeme.numeral read).Begins cs rest ∧
      (digits = read ∨ rest = [] ∧ IsDigits digits ∧
        ∃ fraction, (∀ c ∈ fraction, c.isDigit = true) ∧ read = digits ++ '.' :: fraction) := by
  have hsplit := List.takeWhile_append_dropWhile (p := Char.isDigit) (l := cs)
  have hwhole : ∀ c ∈ cs.takeWhile Char.isDigit, c.isDigit = true :=
    fun c hc => List.mem_takeWhile_imp hc
  have hstops := stopsAt_dropWhile Char.isDigit cs
  unfold Token.digits at h
  dsimp only at h
  generalize cs.takeWhile Char.isDigit = whole at h hsplit hwhole
  generalize cs.dropWhile Char.isDigit = tail at h hsplit hstops
  subst hsplit
  split at h
  · split at h
    · cases h
    · rename_i hne
      obtain ⟨rfl, rfl⟩ := Prod.mk.inj (Option.some.inj h)
      exact ⟨_, numeral_begins_bare hne, Or.inl rfl⟩
  · cases h
  · rename_i tail hne
    have hdigits : IsDigits whole := ⟨hne, hwhole⟩
    have hbegins : (Lexeme.numeral _).Begins (whole ++ '.' :: tail) _ :=
      numeral_begins_point hdigits
    split at h
    · rename_i hend
      obtain ⟨rfl, rfl⟩ := Prod.mk.inj (Option.some.inj h)
      rw [hend] at hbegins
      exact ⟨_, hbegins, Or.inr ⟨rfl, hdigits, _, fun c hc => List.mem_takeWhile_imp hc, rfl⟩⟩
    · obtain ⟨rfl, rfl⟩ := Prod.mk.inj (Option.some.inj h)
      exact ⟨_, hbegins, Or.inl rfl⟩
  · rename_i hne hpoint _
    obtain ⟨rfl, rfl⟩ := Prod.mk.inj (Option.some.inj h)
    have hnotPoint : ∀ cs, tail ≠ '.' :: cs := fun cs hcs => hpoint cs hcs
    exact ⟨whole, numeral_begins_whole ⟨hne, hwhole⟩ hstops hnotPoint, Or.inl rfl⟩

/-- Digits and a point are read with the fraction after them if that is not the end. -/
theorem digits_of_point {whole fraction rest : List Char} (hwhole : IsDigits whole)
    (hfraction : ∀ c ∈ fraction, c.isDigit = true) (hrest : StopsAt Char.isDigit rest)
    (hne : rest ≠ []) :
    Token.digits (whole ++ '.' :: (fraction ++ rest)) = some (whole ++ '.' :: fraction, rest) := by
  have hpoint : StopsAt Char.isDigit ('.' :: (fraction ++ rest)) :=
    (stopsAt_cons _ _ _).mpr (by decide)
  obtain ⟨htake, hdrop⟩ := span_exact Char.isDigit whole _ hwhole.2 hpoint
  obtain ⟨htakeFraction, hdropFraction⟩ := span_exact Char.isDigit fraction rest hfraction hrest
  obtain ⟨d, whole, rfl⟩ := List.exists_cons_of_ne_nil hwhole.1
  obtain ⟨c, rest, rfl⟩ := List.exists_cons_of_ne_nil hne
  unfold Token.digits
  rw [htake, hdrop]
  simp only [htakeFraction, hdropFraction]

theorem digits_of_bare {fraction rest : List Char} (hfraction : IsDigits fraction)
    (hrest : StopsAt Char.isDigit rest) :
    digits ('.' :: fraction ++ rest) = some ('.' :: fraction, rest) := by
  obtain ⟨htake, hdrop⟩ := span_exact Char.isDigit fraction rest hfraction.2 hrest
  obtain ⟨d, fraction, rfl⟩ := List.exists_cons_of_ne_nil hfraction.1
  have hpoint : ('.' :: (d :: fraction ++ rest)).takeWhile Char.isDigit = [] ∧
      ('.' :: (d :: fraction ++ rest)).dropWhile Char.isDigit =
        '.' :: (d :: fraction ++ rest) :=
    span_exact Char.isDigit [] _ nofun ((stopsAt_cons _ _ _).mpr (by decide))
  unfold Token.digits
  rw [List.cons_append, hpoint.1, hpoint.2]
  simp only [htake, hdrop]

/-- A numeral that is not the end of the text is read in full. -/
theorem number_of_begins {digits cs rest : List Char} (h : (Lexeme.numeral digits).Begins cs rest)
    (hne : rest ≠ []) : number cs = some (Double.ofDigits false digits, rest) := by
  obtain ⟨hvalid, rfl, hends⟩ := h
  have hrest : StopsAt Char.isDigit rest := fun c hc => (Bool.or_eq_false_iff.mp (hends c hc)).1
  have hdigits : Token.digits (digits ++ rest) = some (digits, rest) := by
    cases hvalid with
    | whole hwhole =>
      obtain ⟨htake, hdrop⟩ := span_exact Char.isDigit digits rest hwhole.2 hrest
      obtain ⟨d, digits, rfl⟩ := List.exists_cons_of_ne_nil hwhole.1
      obtain ⟨c, rest, rfl⟩ := List.exists_cons_of_ne_nil hne
      have hc : c ≠ '.' := by
        rintro rfl
        have hpoint : '.' ∉ d :: digits := not_mem_point hwhole.2
        simpa [hpoint] using hends '.' rfl
      unfold Token.digits
      rw [htake, hdrop]
      simp [hc]
    | @point whole hwhole =>
      rw [List.append_assoc]
      exact digits_of_point hwhole nofun hrest hne
    | fraction hwhole hfraction =>
      rw [List.append_assoc]
      exact digits_of_point hwhole hfraction.2 hrest hne
    | bare hfraction => exact digits_of_bare hfraction hrest
  rw [number, Lexeme.text, hdigits, Option.map_some]

/-- A numeral that ends the text is read in full unless digits stand before its point. -/
theorem number_at_end {digits : List Char} (h : IsNumeral digits) :
    number digits = some (Double.ofDigits false digits, []) ∨
      ∃ whole fraction, IsDigits whole ∧ (∀ c ∈ fraction, c.isDigit = true) ∧
        digits = whole ++ '.' :: fraction := by
  have hread : Token.digits digits = some (digits, []) →
      number digits = some (Double.ofDigits false digits, []) := fun hdigits => by
    rw [number, hdigits, Option.map_some]
  cases h with
  | whole hwhole =>
    obtain ⟨htake, hdrop⟩ := span_exact Char.isDigit digits [] hwhole.2 (stopsAt_nil _)
    obtain ⟨d, digits, rfl⟩ := List.exists_cons_of_ne_nil hwhole.1
    rw [List.append_nil] at htake hdrop
    refine Or.inl (hread ?_)
    unfold Token.digits
    rw [htake, hdrop]
  | point hwhole => exact Or.inr ⟨_, [], hwhole, nofun, rfl⟩
  | fraction hwhole hfraction => exact Or.inr ⟨_, _, hwhole, hfraction.2, rfl⟩
  | bare hfraction =>
    have hdigits := digits_of_bare hfraction (stopsAt_nil _)
    rw [List.append_nil] at hdigits
    exact Or.inl (hread hdigits)

end Token

end XPathQuery
