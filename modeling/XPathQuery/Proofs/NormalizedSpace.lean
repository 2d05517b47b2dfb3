import XPathQuery.Function.Apply
import XPathQuery.Proofs.Lexemes
import Mathlib.Data.List.Chain

/-!
Normalized space. The maximal runs of other characters than spaces are unique for every
notion of space, and joined by single spaces they are a text with no space around it and
none beside another. Space is meant in the wide sense here, so the result is that of the
narrow sense just for the texts whose spaces are all narrow.
-/
namespace XPathQuery

open Character

structure IsRun (space : Char → Bool) (run : List Char) : Prop where
  ne_nil : run ≠ []
  visible : ∀ c ∈ run, space c = false

/-- The maximal runs of other characters than spaces, in the order of the text: spaces are
passed over, and a run goes on up to a space or the end. -/
inductive RunsOf (space : Char → Bool) : List Char → List (List Char) → Prop
  | nil : RunsOf space [] []
  | space {c : Char} {cs : List Char} {runs : List (List Char)} (hc : space c = true)
      (hcs : RunsOf space cs runs) : RunsOf space (c :: cs) runs
  | run {run cs : List Char} {runs : List (List Char)} (hrun : IsRun space run)
      (hstop : StopsAt (!space ·) cs) (hcs : RunsOf space cs runs) :
      RunsOf space (run ++ cs) (run :: runs)

namespace RunsOf

variable {space : Char → Bool} {cs : List Char} {runs : List (List Char)}

theorem isRun (h : RunsOf space cs runs) : ∀ run ∈ runs, IsRun space run := by
  induction h with
  | nil => exact List.forall_mem_nil _
  | space _ _ ih => exact ih
  | run hrun _ _ ih => exact List.forall_mem_cons.mpr ⟨hrun, ih⟩

/-- Nothing but spaces is between the runs. -/
theorem filter_eq_flatten (h : RunsOf space cs runs) :
    cs.filter (!space ·) = runs.flatten := by
  induction h with
  | nil => rfl
  | space hc _ ih => simpa [hc] using ih
  | @run run cs runs hrun _ _ ih =>
    have hkept : run.filter (!space ·) = run := by
      apply List.filter_eq_self.mpr
      intro c hc
      rw [hrun.visible c hc, Bool.not_false]
    rw [List.filter_append, hkept, ih, List.flatten_cons]

/-- Another notion of space that agrees on the text gives the same runs. -/
theorem of_agree {narrow : Char → Bool} (h : RunsOf space cs runs)
    (hagree : ∀ c ∈ cs, space c = narrow c) : RunsOf narrow cs runs := by
  induction h with
  | nil => exact .nil
  | @space c cs runs hc _ ih =>
    obtain ⟨hhere, hrest⟩ := List.forall_mem_cons.mp hagree
    exact .space (hhere ▸ hc) (ih hrest)
  | @run run cs runs hrun hstop _ ih =>
    obtain ⟨hhere, hrest⟩ := List.forall_mem_append.mp hagree
    refine .run ⟨hrun.ne_nil, ?_⟩ ?_ (ih hrest)
    · intro c hc
      exact (hhere c hc).symm.trans (hrun.visible c hc)
    · intro c hc
      have hagreed := hrest c (List.mem_of_mem_head? hc)
      exact (congrArg not hagreed).symm.trans (hstop c hc)

/-- A text has its runs only once: the first is all that can be read before a space. -/
theorem unique {others : List (List Char)} (h : RunsOf space cs runs)
    (hothers : RunsOf space cs others) : runs = others := by
  induction h generalizing others with
  | nil =>
    generalize htext : [] = text at hothers
    cases hothers with
    | nil => rfl
    | space => cases htext
    | run hrun => exact absurd (List.append_eq_nil_iff.mp htext.symm).1 hrun.ne_nil
  | @space c cs runs hc _ ih =>
    generalize htext : c :: cs = text at hothers
    cases hothers with
    | nil => cases htext
    | space _ hothers =>
      obtain ⟨rfl, rfl⟩ := List.cons.inj htext
      exact ih hothers
    | @run other cs' runs' hother =>
      obtain ⟨d, ds, rfl⟩ := List.exists_cons_of_ne_nil hother.ne_nil
      obtain ⟨rfl, -⟩ := List.cons.inj htext
      rw [hother.visible c List.mem_cons_self] at hc
      cases hc
  | @run run cs runs hrun hstop _ ih =>
    generalize htext : run ++ cs = text at hothers
    cases hothers with
    | nil => exact absurd (List.append_eq_nil_iff.mp htext).1 hrun.ne_nil
    | @space d cs' _ hd =>
      obtain ⟨e, es, rfl⟩ := List.exists_cons_of_ne_nil hrun.ne_nil
      obtain ⟨rfl, -⟩ := List.cons.inj htext
      rw [hrun.visible e List.mem_cons_self] at hd
      cases hd
    | @run other cs' runs' hother hstop' hothers =>
      have hvisible : ∀ run, IsRun space run → ∀ c ∈ run, (!space c) = true := by
        intro run hrun c hc
        rw [hrun.visible c hc, Bool.not_false]
      obtain ⟨htake, hdrop⟩ := span_exact (!space ·) run cs (hvisible run hrun) hstop
      obtain ⟨htake', hdrop'⟩ := span_exact (!space ·) other cs' (hvisible other hother) hstop'
      rw [htext] at htake hdrop
      obtain rfl := htake.symm.trans htake'
      obtain rfl := hdrop.symm.trans hdrop'
      rw [ih hothers]

end RunsOf

/-! ### Runs joined by single spaces -/

structure Tidy (space : Char → Bool) (text : List Char) : Prop where
  first : ∀ c ∈ text.head?, space c = false
  last : ∀ c ∈ text.getLast?, space c = false
  apart : text.IsChain fun c d => ¬ (space c = true ∧ space d = true)

section Joined

variable {space : Char → Bool}

theorem tidy_nil : Tidy space [] := by
  refine ⟨?_, ?_, .nil⟩ <;> intro c hc <;> cases hc

theorem IsRun.tidy {run : List Char} (h : IsRun space run) : Tidy space run := by
  refine ⟨?_, ?_, ?_⟩
  · intro c hc
    exact h.visible c (List.mem_of_mem_head? hc)
  · intro c hc
    exact h.visible c (List.mem_of_getLast? hc)
  · apply List.Pairwise.isChain
    apply List.pairwise_of_forall_mem_list
    intro c hc d _ hboth
    exact Bool.false_ne_true ((h.visible c hc).symm.trans hboth.1)

/-- A run, one space and a tidy text are tidy together. -/
theorem Tidy.after_run {run text : List Char} (h : Tidy space text) (hrun : IsRun space run)
    (hne : text ≠ []) : Tidy space (run ++ ' ' :: text) := by
  obtain ⟨d, ds, rfl⟩ := List.exists_cons_of_ne_nil hne
  refine ⟨?_, ?_, ?_⟩
  · intro c hc
    obtain ⟨e, es, rfl⟩ := List.exists_cons_of_ne_nil hrun.ne_nil
    exact hrun.tidy.first c hc
  · intro c hc
    rw [List.getLast?_append, List.getLast?_cons_cons] at hc
    exact h.last c (by simpa using hc)
  · rw [List.isChain_append, List.isChain_cons_cons]
    refine ⟨hrun.tidy.apart, ⟨?_, h.apart⟩, ?_⟩
    · intro hboth
      exact Bool.false_ne_true ((h.first d rfl).symm.trans hboth.2)
    · intro c hc e _ hboth
      exact Bool.false_ne_true ((hrun.tidy.last c hc).symm.trans hboth.1)

end Joined

namespace Text

theorem joinWords_eq_intercalate (runs : List (List Char)) :
    joinWords runs = [' '].intercalate runs := by
  induction runs with
  | nil => rfl
  | cons run runs ih =>
    cases runs with
    | nil => exact List.intercalate_singleton.symm
    | cons next runs =>
      rw [List.intercalate_cons_cons, List.append_assoc, ← ih]
      rfl

theorem joinWords_ne_nil {space : Char → Bool} {run : List Char} (hrun : IsRun space run)
    (runs : List (List Char)) : joinWords (run :: runs) ≠ [] := by
  cases runs with
  | nil => exact hrun.ne_nil
  | cons next runs => simp [joinWords]

section

variable {space : Char → Bool} {runs : List (List Char)}

theorem tidy_joinWords (hruns : ∀ run ∈ runs, IsRun space run) :
    Tidy space (joinWords runs) := by
  induction runs with
  | nil => exact tidy_nil
  | cons run runs ih =>
    obtain ⟨hrun, hrest⟩ := List.forall_mem_cons.mp hruns
    cases runs with
    | nil => exact hrun.tidy
    | cons next runs =>
      exact (ih hrest).after_run hrun (joinWords_ne_nil (hrest next List.mem_cons_self) runs)

/-- Only single spaces of the plain kind are put between runs. -/
theorem eq_of_mem_joinWords (hruns : ∀ run ∈ runs, IsRun space run) {c : Char}
    (hc : c ∈ joinWords runs) (hspace : space c = true) : c = ' ' := by
  induction runs with
  | nil => cases hc
  | cons run runs ih =>
    obtain ⟨hrun, hrest⟩ := List.forall_mem_cons.mp hruns
    have hvisible : c ∉ run := by
      intro h
      exact Bool.false_ne_true ((hrun.visible c h).symm.trans hspace)
    cases runs with
    | nil => exact absurd hc hvisible
    | cons next runs =>
      rcases List.mem_append.mp hc with h | h
      · exact absurd h hvisible
      · rcases List.mem_cons.mp h with h | h
        · exact h
        · exact ih hrest h

/-- Joined runs are the runs of what they join to. -/
theorem runsOf_joinWords (hspace : space ' ' = true) (hruns : ∀ run ∈ runs, IsRun space run) :
    RunsOf space (joinWords runs) runs := by
  induction runs with
  | nil => exact .nil
  | cons run runs ih =>
    obtain ⟨hrun, hrest⟩ := List.forall_mem_cons.mp hruns
    cases runs with
    | nil => simpa [joinWords] using RunsOf.run hrun (stopsAt_nil _) .nil
    | cons next runs =>
      refine .run hrun ?_ (.space hspace (ih hrest))
      rw [stopsAt_cons, hspace, Bool.not_true]

end

/-- A piece before the first space is a run unless it is empty. -/
theorem runsOf_piece {piece tail : List Char} {rest : List (List Char)}
    (hvisible : ∀ c ∈ piece, isSpace c = false) (hstop : StopsAt (!isSpace ·) tail)
    (hrest : RunsOf isSpace tail (rest.filter (!·.isEmpty))) :
    RunsOf isSpace (piece ++ tail) ((piece :: rest).filter (!·.isEmpty)) := by
  cases piece with
  | nil => exact hrest
  | cons c piece => exact .run ⟨List.cons_ne_nil c piece, hvisible⟩ hstop hrest

/-- The first piece of a text is what stands before its first space, and the words of the
other pieces are the runs from there on. -/
theorem exists_pieces (cs : List Char) :
    ∃ piece rest tail, pieces cs = piece :: rest ∧ cs = piece ++ tail ∧
      (∀ c ∈ piece, isSpace c = false) ∧ StopsAt (!isSpace ·) tail ∧
      RunsOf isSpace tail (rest.filter (!·.isEmpty)) := by
  induction cs with
  | nil => exact ⟨[], [], [], rfl, rfl, List.forall_mem_nil _, stopsAt_nil _, .nil⟩
  | cons c cs ih =>
    obtain ⟨piece, rest, tail, hpieces, rfl, hvisible, hstop, hruns⟩ := ih
    by_cases hc : isSpace c = true
    · refine ⟨[], piece :: rest, c :: (piece ++ tail), ?_, rfl, List.forall_mem_nil _, ?_, ?_⟩
      · rw [pieces, if_pos hc, hpieces]
      · rw [stopsAt_cons, hc, Bool.not_true]
      · exact .space hc (runsOf_piece hvisible hstop hruns)
    · refine ⟨c :: piece, rest, tail, ?_, rfl, ?_, hstop, hruns⟩
      · rw [pieces, if_neg hc, hpieces]
      · exact List.forall_mem_cons.mpr ⟨Bool.eq_false_iff.mpr hc, hvisible⟩

theorem runsOf_words (cs : List Char) : RunsOf isSpace cs (words cs) := by
  obtain ⟨piece, rest, tail, hpieces, rfl, hvisible, hstop, hruns⟩ := exists_pieces cs
  rw [words, hpieces]
  exact runsOf_piece hvisible hstop hruns

end Text

/-- A text is normalized to the joined runs of its other characters than spaces. -/
structure Normalized (space : Char → Bool) (text result : List Char) : Prop
    extends Tidy space result where
  joined : ∃ runs, RunsOf space text runs ∧ result = [' '].intercalate runs
  kept : result.filter (!space ·) = text.filter (!space ·)

theorem RunsOf.normalized {space : Char → Bool} {text : List Char} {runs : List (List Char)}
    (h : RunsOf space text runs) (hspace : space ' ' = true) :
    Normalized space text (Text.joinWords runs) := by
  refine ⟨Text.tidy_joinWords h.isRun, ⟨runs, h, Text.joinWords_eq_intercalate runs⟩, ?_⟩
  rw [(Text.runsOf_joinWords hspace h.isRun).filter_eq_flatten, h.filter_eq_flatten]

theorem normalized_normalizeSpace (text : List Char) :
    Normalized isSpace text (Text.normalizeSpace text) :=
  (Text.runsOf_words text).normalized (by decide)

theorem normalizeSpace_normalizeSpace (text : List Char) :
    Text.normalizeSpace (Text.normalizeSpace text) = Text.normalizeSpace text := by
  have hspace : isSpace ' ' = true := by decide
  have hruns : RunsOf isSpace (Text.normalizeSpace text) (Text.words text) :=
    Text.runsOf_joinWords hspace (Text.runsOf_words text).isRun
  exact congrArg Text.joinWords ((Text.runsOf_words (Text.normalizeSpace text)).unique hruns)

/-- Normalized in the narrow sense, too, are just the texts with narrow spaces only: other
spaces are not kept. -/
theorem normalized_isBlank_iff (text : List Char) :
    Normalized isBlank text (Text.normalizeSpace text) ↔
      ∀ c ∈ text, isSpace c = true → isBlank c = true := by
  constructor
  · intro h c hc hspace
    by_contra hblank
    have hkept : c ∈ (Text.normalizeSpace text).filter (!isBlank ·) := by
      rw [h.kept]
      exact List.mem_filter.mpr ⟨hc, by simpa using hblank⟩
    have hmem := (List.mem_filter.mp hkept).1
    obtain rfl := Text.eq_of_mem_joinWords (Text.runsOf_words text).isRun hmem hspace
    exact hblank rfl
  · intro h
    have hagree : ∀ c ∈ text, isSpace c = isBlank c := by
      intro c hc
      rw [Bool.eq_iff_iff]
      exact ⟨h c hc, isSpace_of_isBlank⟩
    exact ((Text.runsOf_words text).of_agree hagree).normalized rfl

/-- Whatever the argument stands for is normalized in the wide sense of space, the text of the
context node where none is given. In the narrow sense it is so just where the text has no other
spaces, and to normalize the result again changes nothing. -/
theorem callFunction_normalizeSpace (tree : Tree) (context : Context) (given : Option Value) :
    ∃ result : String,
      callFunction tree context "normalize-space" given.toList = .ok (.string result) ∧
      callFunction tree context "normalize-space" [.string result] = .ok (.string result) ∧
      (let text := ((CoreFunction.chosenValue context given.toList).toText tree).toList
       Normalized isSpace text result.toList ∧
        (Normalized isBlank text result.toList ↔
          ∀ c ∈ text, isSpace c = true → isBlank c = true)) := by
  have hcall : ∀ given : Option Value,
      callFunction tree context "normalize-space" given.toList =
        .ok (.string (String.ofList (Text.normalizeSpace
          ((CoreFunction.chosenValue context given.toList).toText tree).toList))) := by
    intro given
    cases given <;> rfl
  refine ⟨_, hcall given, ?_, ?_⟩
  · refine (hcall (some (.string _))).trans ?_
    change Except.ok (Value.string (String.ofList
      (Text.normalizeSpace (String.ofList _).toList))) = _
    rw [String.toList_ofList, normalizeSpace_normalizeSpace]
  · simp only [String.toList_ofList]
    exact ⟨normalized_normalizeSpace _, normalized_isBlank_iff _⟩

/-- A no-break space is lost, though it is no space in the narrow sense. -/
theorem callFunction_normalizeSpace_noBreak :
    callFunction (.node ⟨.root, none, none, "", []⟩ [] []) (.ofNode []) "normalize-space"
        [.string "a\u00a0b"] = .ok (.string "a b") ∧
      ¬ Normalized isBlank "a\u00a0b".toList "a b".toList := by
  refine ⟨rfl, ?_⟩
  intro h
  exact absurd h.kept (by decide)

end XPathQuery
