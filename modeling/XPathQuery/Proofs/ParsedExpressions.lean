import XPathQuery.Proofs.ParserSoundness
import XPathQuery.Proofs.Subexpressions

/-!
What an expression is that comes from a text. Its names, targets, literals and numbers can
be written, no namespace is set, and no list that the grammar wants to be there is empty.
-/
namespace XPathQuery

open Token Grammar

def Quotable (text : List Char) : Prop := ∃ quote, (Lexeme.literal quote text).Valid

def NodeTest.WellFormed : NodeTest → Prop
  | .name nsPrefix localPart uri =>
      (∀ p, nsPrefix = some p → IsName p.toList) ∧ IsName localPart.toList ∧ uri = none
  | .namespaceWildcard nsPrefix uri => IsName nsPrefix.toList ∧ uri = none
  | .instruction (some target) => Quotable target.toList
  | _ => True

namespace Expr

def Proper : Expr → Prop
  | .literal text => Quotable text.toList
  | .number value => ∃ digits, IsNumeral digits ∧ value = Double.ofDigits false digits
  | .path start steps => (start = .root ∨ steps ≠ []) ∧ ∀ s ∈ steps, s.test.WellFormed
  | .filter _ predicates => predicates ≠ []
  | .call function _ => function ∉ nodeTypeNames ∧
      ∃ nsPrefix localPart, (Lexeme.name nsPrefix localPart).Valid ∧
        function = qualifiedText (nsPrefix, localPart)
  | _ => True

def WellFormed (e : Expr) : Prop := e.Everywhere Proper

theorem wellFormed_iff (e : Expr) :
    e.WellFormed ↔ e.Proper ∧ ∀ part ∈ e.parts, part.WellFormed :=
  everywhere_iff Proper e

end Expr

def Step.WellFormed (s : Step) : Prop := s.test.WellFormed ∧ ∀ e ∈ s.predicates, e.WellFormed

theorem Step.wellFormed_descendantOrSelf : Step.descendantOrSelf.WellFormed :=
  ⟨trivial, nofun⟩

namespace Expr

theorem wellFormed_path_iff (start : PathStart) (steps : List Step) :
    (path start steps).WellFormed ↔ (start = .root ∨ steps ≠ []) ∧
      (∀ e, start = .expr e → e.WellFormed) ∧ ∀ s ∈ steps, s.WellFormed := by
  rw [wellFormed_iff]
  simp only [Proper, parts, List.mem_append, List.mem_flatMap]
  constructor
  · rintro ⟨⟨hstart, htests⟩, hparts⟩
    refine ⟨hstart, ?_, fun s hs => ⟨htests s hs, fun e he => hparts e (Or.inr ⟨s, hs, he⟩)⟩⟩
    rintro e rfl
    exact hparts e (Or.inl (List.mem_singleton.mpr rfl))
  · rintro ⟨hstart, hexpr, hsteps⟩
    refine ⟨⟨hstart, fun s hs => (hsteps s hs).1⟩, ?_⟩
    rintro part (hpart | ⟨s, hs, hpart⟩)
    · cases start with
      | expr e =>
        obtain rfl := List.mem_singleton.mp hpart
        exact hexpr part rfl
      | root => cases hpart
      | context => cases hpart
    · exact (hsteps s hs).2 part hpart

theorem wellFormed_filter_iff (base : Expr) (predicates : List Expr) :
    (filter base predicates).WellFormed ↔
      predicates ≠ [] ∧ base.WellFormed ∧ ∀ e ∈ predicates, e.WellFormed := by
  rw [wellFormed_iff]
  simp [Proper, parts]

theorem wellFormed_binary_iff (operator : Operator) (left right : Expr) :
    (binary operator left right).WellFormed ↔ left.WellFormed ∧ right.WellFormed := by
  rw [wellFormed_iff]
  simp [Proper, parts]

theorem wellFormed_negate_iff (e : Expr) : (negate e).WellFormed ↔ e.WellFormed := by
  rw [wellFormed_iff]
  simp [Proper, parts]

end Expr

namespace Grammar

def Phrase.WellFormed : Phrase → Prop
  | .test t | .head _ t => t.WellFormed
  | .step s => s.WellFormed
  | .predicates es | .arguments es => ∀ e ∈ es, e.WellFormed
  | .steps found => found ≠ [] ∧ ∀ s ∈ found, s.WellFormed
  | .location e | .primary e | .filter e | .level _ e => e.WellFormed

theorem wellFormed_of_mem_nodeTypeTests : ∀ entry ∈ nodeTypeTests, entry.2.WellFormed := by
  simp [nodeTypeTests, NodeTest.WellFormed]

/-- Steps after a start, with the step that two slashes stand for or without it. -/
theorem wellFormed_steps {start : PathStart} {steps : List Step}
    (hstart : ∀ e, start = .expr e → e.WellFormed) (h : (Phrase.steps steps).WellFormed) :
    (Expr.path start steps).WellFormed ∧
      (Expr.path start (Step.descendantOrSelf :: steps)).WellFormed := by
  obtain ⟨hne, hsteps⟩ := h
  refine ⟨(Expr.wellFormed_path_iff _ _).mpr ⟨Or.inr hne, hstart, hsteps⟩,
    (Expr.wellFormed_path_iff _ _).mpr ⟨Or.inr (List.cons_ne_nil _ _), hstart, ?_⟩⟩
  rw [List.forall_mem_cons]
  exact ⟨Step.wellFormed_descendantOrSelf, hsteps⟩

/-- What the grammar derives is well-formed. -/
theorem Derives.wellFormed {layout : Layout} {phrase : Phrase} {cs rest : List Char}
    (h : Derives layout phrase cs rest) : phrase.WellFormed := by
  induction h with
  | wildcard h | selfHead h | parentHead h => trivial
  | @nameTest nsPrefix localPart _ _ h =>
    obtain ⟨after, ⟨⟨hnames, hlocal⟩, -, -⟩, -⟩ := h
    refine ⟨?_, by simpa using hlocal, rfl⟩
    intro p hp
    obtain ⟨name, hname, rfl⟩ := Option.map_eq_some_iff.mp hp
    simpa using hnames name hname
  | @namespaceTest nsPrefix _ _ h =>
    obtain ⟨after, ⟨hvalid, -, -⟩, -⟩ := h
    have hname : IsName nsPrefix := hvalid
    exact ⟨by simpa using hname, rfl⟩
  | typeTest htest => exact wellFormed_of_mem_nodeTypeTests _ htest
  | @instructionTest quote target _ _ _ _ _ _ _ htarget =>
    obtain ⟨after, ⟨hvalid, -, -⟩, -⟩ := htarget
    exact ⟨quote, by simpa using hvalid⟩
  | axisHead _ _ _ _ ih | attributeHead _ _ ih | childHead _ ih => exact ih
  | step _ _ ihTest ih => exact ⟨ihTest, ih⟩
  | noPredicates | noArguments => exact nofun
  | predicate _ _ _ _ ih ihMore | argument _ _ _ ih ihMore =>
    exact List.forall_mem_cons.mpr ⟨ih, ihMore⟩
  | lastArgument _ ih => exact List.forall_mem_cons.mpr ⟨ih, nofun⟩
  | firstStep _ ih => exact ⟨List.cons_ne_nil _ _, List.forall_mem_cons.mpr ⟨ih, nofun⟩⟩
  | nextStep _ _ _ ihSteps ih =>
    refine ⟨List.append_ne_nil_of_left_ne_nil ihSteps.1 _,
      List.forall_mem_append.mpr ⟨ihSteps.2, ?_⟩⟩
    exact List.forall_mem_cons.mpr ⟨ih, nofun⟩
  | nextDescendantStep _ _ _ ihSteps ih =>
    refine ⟨List.append_ne_nil_of_left_ne_nil ihSteps.1 _,
      List.forall_mem_append.mpr ⟨ihSteps.2, ?_⟩⟩
    exact List.forall_mem_cons.mpr
      ⟨Step.wellFormed_descendantOrSelf, List.forall_mem_cons.mpr ⟨ih, nofun⟩⟩
  | root => exact (Expr.wellFormed_path_iff _ _).mpr ⟨Or.inl rfl, nofun, nofun⟩
  | rootSteps _ _ _ ih | contextSteps _ ih => exact (wellFormed_steps (by rintro e ⟨⟩) ih).1
  | rootDescendantSteps _ _ _ ih => exact (wellFormed_steps (by rintro e ⟨⟩) ih).2
  | literal h =>
    obtain ⟨after, ⟨hvalid, -, -⟩, -⟩ := h
    exact (Expr.wellFormed_iff _).mpr ⟨⟨_, by simpa using hvalid⟩, nofun⟩
  | number h => exact (Expr.wellFormed_iff _).mpr ⟨⟨_, h.valid, rfl⟩, nofun⟩
  | parentheses _ _ _ ih | unfiltered _ ih | locationPath _ ih | filterPath _ ih
  | looser _ _ ih => exact ih
  | call hname hfunction _ _ _ ih =>
    obtain ⟨after, ⟨hvalid, -, -⟩, -⟩ := hname
    exact (Expr.wellFormed_iff _).mpr ⟨⟨hfunction, _, _, hvalid, rfl⟩, ih⟩
  | filtered _ _ ihBase ih =>
    exact (Expr.wellFormed_filter_iff _ _).mpr ⟨List.cons_ne_nil _ _, ihBase, ih⟩
  | filterSteps _ _ _ ihStart ih =>
    exact (wellFormed_steps (by rintro e ⟨⟩; exact ihStart) ih).1
  | filterDescendantSteps _ _ _ ihStart ih =>
    exact (wellFormed_steps (by rintro e ⟨⟩; exact ihStart) ih).2
  | negate _ _ ih => exact (Expr.wellFormed_negate_iff _).mpr ih
  | binary _ _ _ ihLeft ihRight => exact (Expr.wellFormed_binary_iff _ _ _).mpr ⟨ihLeft, ihRight⟩

/-- A cut numeral is a numeral. -/
theorem CutShort.wellFormed {cs : List Char} {e cut : Expr} (h : CutShort cs e cut)
    (he : e.WellFormed) : cut.WellFormed := by
  induction h with
  | number hwhole => exact (Expr.wellFormed_iff _).mpr ⟨⟨_, .whole hwhole, rfl⟩, nofun⟩
  | binary _ ih =>
    obtain ⟨hleft, hright⟩ := (Expr.wellFormed_binary_iff _ _ _).mp he
    exact (Expr.wellFormed_binary_iff _ _ _).mpr ⟨hleft, ih hright⟩
  | negate _ ih =>
    exact (Expr.wellFormed_negate_iff _).mpr (ih ((Expr.wellFormed_negate_iff _).mp he))

end Grammar

/-- Every expression that is parsed is well-formed. -/
theorem Expr.wellFormed_of_parse {source : String} {e : Expr} (h : Expr.parse source = .ok e) :
    e.WellFormed := by
  rcases Expr.readAs_of_parse h with hderives | ⟨-, e', hcut, hderives⟩
  · exact hderives.wellFormed
  · exact hcut.wellFormed hderives.wellFormed

end XPathQuery
