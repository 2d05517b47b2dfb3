import XPathQuery.Proofs.TextSearch
import XPathQuery.Selection.Template

/-!
Templates by their markers. The markers of a text, each the leftmost one in what the marker
before it leaves, split the text in one way. A template is filled in by putting an argument
between every two of these parts, so nothing that has been put in is ever looked at again,
whatever it holds or makes with its neighbours. One pass of the loop takes one marker.
-/
namespace XPathQuery.Template

open Text

/-- The markers of a text leave `first` before them and each text of `rest` behind one of
them. They are found from left to right and do not overlap. -/
inductive SplitsAt (marker : List Char) : List Char → List Char → List (List Char) → Prop
  | unmarked (cs : List Char) (hnone : ¬ marker <:+: cs) : SplitsAt marker cs cs []
  | marked (cs before after next : List Char) (rest : List (List Char))
      (hsplit : cs = before ++ marker ++ after) (hleftmost : NoneBefore marker cs before.length)
      (hafter : SplitsAt marker after next rest) : SplitsAt marker cs before (next :: rest)

/-- The parts of a text with fillers between them. Surplus fillers are not used. -/
def filled (fillers : List (List Char)) (first : List Char) (rest : List (List Char)) :
    List Char :=
  first ++ (List.zipWith (· ++ ·) fillers rest).flatten

section Parts
variable {marker cs first : List Char} {rest : List (List Char)}

theorem filled_nil (fillers : List (List Char)) (first : List Char) :
    filled fillers first [] = first := by
  simp [filled]

theorem filled_cons (filler first next : List Char) (fillers rest : List (List Char)) :
    filled (filler :: fillers) first (next :: rest) =
      first ++ filler ++ filled fillers next rest := by
  simp [filled]

theorem exists_splitsAt (hmarker : marker ≠ []) (cs : List Char) :
    ∃ first rest, SplitsAt marker cs first rest := by
  cases hfound : splitAt? marker cs with
  | none => exact ⟨cs, [], .unmarked cs ((splitAt?_eq_none_iff marker cs).mp hfound)⟩
  | some parts =>
    obtain ⟨before, after⟩ := parts
    obtain ⟨hsplit, hleftmost⟩ := (splitAt?_eq_some_iff marker cs before after).mp hfound
    have hshorter : after.length < cs.length := by
      have hpos := List.length_pos_iff.mpr hmarker
      rw [hsplit, List.length_append, List.length_append]
      omega
    obtain ⟨next, rest, hafter⟩ := exists_splitsAt hmarker after
    exact ⟨before, next :: rest, .marked cs before after next rest hsplit hleftmost hafter⟩
termination_by cs.length

theorem SplitsAt.splitAt?_eq_none (h : SplitsAt marker cs first []) :
    splitAt? marker cs = none ∧ first = cs := by
  cases h with
  | unmarked _ hnone => exact ⟨(splitAt?_eq_none_iff marker cs).mpr hnone, rfl⟩

theorem SplitsAt.exists_after {next : List Char} (h : SplitsAt marker cs first (next :: rest)) :
    ∃ after, splitAt? marker cs = some (first, after) ∧ SplitsAt marker after next rest := by
  cases h with
  | marked _ _ after _ _ hsplit hleftmost hafter =>
    exact ⟨after, (splitAt?_eq_some_iff marker cs first after).mpr ⟨hsplit, hleftmost⟩, hafter⟩

theorem SplitsAt.unique {other : List Char} {others : List (List Char)}
    (h : SplitsAt marker cs first rest) (hother : SplitsAt marker cs other others) :
    other = first ∧ others = rest := by
  induction rest generalizing cs first other others with
  | nil =>
    obtain ⟨hnone, rfl⟩ := h.splitAt?_eq_none
    cases others with
    | nil => exact ⟨hother.splitAt?_eq_none.2, rfl⟩
    | cons next others =>
      obtain ⟨after, hsome, _⟩ := hother.exists_after
      rw [hnone] at hsome
      cases hsome
  | cons next rest ih =>
    obtain ⟨after, hsome, hafter⟩ := h.exists_after
    cases others with
    | nil =>
      rw [hother.splitAt?_eq_none.1] at hsome
      cases hsome
    | cons next' others =>
      obtain ⟨after', hsome', hafter'⟩ := hother.exists_after
      obtain ⟨rfl, rfl⟩ := Prod.mk.inj (Option.some.inj (hsome'.symm.trans hsome))
      obtain ⟨rfl, rfl⟩ := ih hafter hafter'
      exact ⟨rfl, rfl⟩

/-- With the markers put back the text is whole again. -/
theorem SplitsAt.filled_replicate (h : SplitsAt marker cs first rest) :
    filled (List.replicate rest.length marker) first rest = cs := by
  induction h with
  | unmarked cs _ => exact filled_nil _ cs
  | marked cs before after next rest hsplit _ _ ih =>
    rw [List.length_cons, List.replicate_succ, filled_cons, ih, hsplit]

/-- There are no more markers than characters. -/
theorem SplitsAt.length_le (hmarker : marker ≠ []) (h : SplitsAt marker cs first rest) :
    rest.length ≤ cs.length := by
  induction h with
  | unmarked cs _ => exact Nat.zero_le _
  | marked cs before after next rest hsplit _ _ ih =>
    have hpos := List.length_pos_iff.mpr hmarker
    rw [hsplit, List.length_append, List.length_append, List.length_cons]
    omega

end Parts

section Passes
variable {marker cs first next : List Char} {rest : List (List Char)} {strict : Bool}
  {failure : Nat → SelectError} {bound : List Char}

/-- With an argument for every marker each marker is replaced by the next one. -/
theorem fillWithin_of_le (h : SplitsAt marker cs first rest) (used : Nat)
    (arguments : List (List Char)) (hbound : rest.length < bound.length)
    (hle : rest.length ≤ arguments.length) :
    fillWithin marker strict failure bound used arguments cs =
      .ok (filled arguments first rest) := by
  induction rest generalizing cs first bound used arguments with
  | nil =>
    obtain ⟨hnone, rfl⟩ := h.splitAt?_eq_none
    obtain ⟨b, bound, rfl⟩ := List.exists_cons_of_length_pos hbound
    rw [fillWithin, hnone, filled_nil]
  | cons next rest ih =>
    obtain ⟨after, hsome, hafter⟩ := h.exists_after
    obtain ⟨b, bound, rfl⟩ := List.exists_cons_of_length_pos (Nat.zero_lt_of_lt hbound)
    obtain ⟨argument, arguments, rfl⟩ := List.exists_cons_of_length_pos (Nat.zero_lt_of_lt hle)
    have hfilled := ih hafter (used + 1) arguments (Nat.lt_of_succ_lt_succ hbound)
      (Nat.le_of_succ_le_succ hle)
    simp only [fillWithin, hsome, hfilled, Except.map, filled_cons]

/-- In strict mode the first marker without an argument is an error, which counts the
markers up to it. -/
theorem fillWithin_of_lt (h : SplitsAt marker cs first rest) (used : Nat)
    (arguments : List (List Char)) (hbound : rest.length < bound.length)
    (hlt : arguments.length < rest.length) :
    fillWithin marker true failure bound used arguments cs =
      .error (failure (used + arguments.length + 1)) := by
  induction rest generalizing cs first bound used arguments with
  | nil => exact absurd hlt (Nat.not_lt_zero _)
  | cons next rest ih =>
    obtain ⟨after, hsome, hafter⟩ := h.exists_after
    obtain ⟨b, bound, rfl⟩ := List.exists_cons_of_length_pos (Nat.zero_lt_of_lt hbound)
    cases arguments with
    | nil => simp only [fillWithin, hsome, if_true, List.length_nil, Nat.add_zero]
    | cons argument arguments =>
      have hmissing := ih hafter (used + 1) arguments (Nat.lt_of_succ_lt_succ hbound)
        (Nat.lt_of_succ_lt_succ hlt)
      simp only [fillWithin, hsome, hmissing, Except.map, List.length_cons]
      rw [Nat.add_assoc used 1, Nat.add_comm 1]

/-- In lenient mode the markers without an argument fill their own places. -/
theorem fillWithin_lenient (h : SplitsAt marker cs first rest) (used : Nat)
    (arguments : List (List Char)) (hbound : rest.length < bound.length) :
    fillWithin marker false failure bound used arguments cs =
      .ok (filled (arguments ++ List.replicate (rest.length - arguments.length) marker)
        first rest) := by
  induction rest generalizing cs first bound used arguments with
  | nil =>
    obtain ⟨hnone, rfl⟩ := h.splitAt?_eq_none
    obtain ⟨b, bound, rfl⟩ := List.exists_cons_of_length_pos hbound
    rw [fillWithin, hnone, filled_nil]
  | cons next rest ih =>
    obtain ⟨after, hsome, hafter⟩ := h.exists_after
    obtain ⟨b, bound, rfl⟩ := List.exists_cons_of_length_pos (Nat.zero_lt_of_lt hbound)
    cases arguments with
    | nil =>
      have hkept := ih hafter (used + 1) [] (Nat.lt_of_succ_lt_succ hbound)
      simp only [fillWithin, hsome, hkept, Except.map, Bool.false_eq_true, if_false,
        List.nil_append, List.length_nil, Nat.sub_zero, List.length_cons, List.replicate_succ,
        filled_cons]
    | cons argument arguments =>
      have hkept := ih hafter (used + 1) arguments (Nat.lt_of_succ_lt_succ hbound)
      simp only [fillWithin, hsome, hkept, Except.map, List.length_cons, Nat.add_sub_add_right,
        List.cons_append, filled_cons]

/-- One pass for each part is enough, and more of them change nothing. -/
theorem fillWithin_of_bounds (h : SplitsAt marker cs first rest) (used : Nat)
    (arguments : List (List Char)) (other : List Char) (hbound : rest.length < bound.length)
    (hother : rest.length < other.length) :
    fillWithin marker strict failure other used arguments cs =
      fillWithin marker strict failure bound used arguments cs := by
  rcases Nat.lt_or_ge arguments.length rest.length with hlt | hle
  · cases strict with
    | false =>
      rw [fillWithin_lenient h used arguments hother, fillWithin_lenient h used arguments hbound]
    | true =>
      rw [fillWithin_of_lt h used arguments hother hlt,
        fillWithin_of_lt h used arguments hbound hlt]
  · rw [fillWithin_of_le h used arguments hother hle, fillWithin_of_le h used arguments hbound hle]

end Passes

/-- What becomes of a template whose markers leave `first` before them and the texts of
`rest` behind them. -/
structure Outcome (config : SelectConfig) (expression : String) (arguments : List String)
    (first : List Char) (rest : List (List Char)) : Prop where
  filled_markers : String.ofList
    (filled (List.replicate rest.length config.placeholder.toList) first rest) = expression
  of_le : rest.length ≤ arguments.length → substitute config expression arguments =
    .ok (String.ofList (filled (arguments.map String.toList) first rest))
  strict_of_lt : arguments.length < rest.length → config.strict = true →
    substitute config expression arguments =
      .error (.missingArgument expression (arguments.length + 1) arguments.length)
  lenient_of_lt : arguments.length < rest.length → config.strict = false →
    substitute config expression arguments =
      .ok (String.ofList (filled (arguments.map String.toList ++
        List.replicate (rest.length - arguments.length) config.placeholder.toList) first rest))
  passes : ∀ bound : List Char, rest.length < bound.length →
    (fillWithin config.placeholder.toList config.strict
      (fun position => .missingArgument expression position arguments.length) bound 0
      (arguments.map String.toList) expression.toList).map String.ofList =
    substitute config expression arguments

/-- A template is its own expression when there is nothing to put in or no marker to look
for. Otherwise its markers split it in one way, and the arguments go between the parts: all
that are needed, or an error at the first marker that has none, or the surplus markers where
they were. The loop makes one pass for each part, so it ends however large its bound is. -/
theorem substitute_exact (config : SelectConfig) (expression : String)
    (arguments : List String) :
    (arguments = [] ∨ config.placeholder = "" →
      substitute config expression arguments = .ok expression) ∧
    (arguments ≠ [] → config.placeholder ≠ "" →
      ∃ first rest, Outcome config expression arguments first rest ∧
        ∀ other others,
          SplitsAt config.placeholder.toList expression.toList other others ↔
            other = first ∧ others = rest) := by
  constructor
  · intro h
    rw [substitute, if_pos (by simpa using h)]
  · intro harguments hplaceholder
    have hmarker : config.placeholder.toList ≠ [] := by simpa using hplaceholder
    obtain ⟨first, rest, hsplits⟩ := exists_splitsAt hmarker expression.toList
    have hloop : substitute config expression arguments =
        (fillWithin config.placeholder.toList config.strict
          (fun position => .missingArgument expression position arguments.length)
          (' ' :: expression.toList) 0 (arguments.map String.toList)
          expression.toList).map String.ofList := by
      rw [substitute, if_neg (by simp [harguments, hplaceholder])]
    have hbound : rest.length < (' ' :: expression.toList).length :=
      Nat.lt_succ_of_le (hsplits.length_le hmarker)
    refine ⟨first, rest, ?_, fun other others => ⟨hsplits.unique, ?_⟩⟩
    · constructor
      · rw [hsplits.filled_replicate, String.ofList_toList]
      · intro hle
        rw [hloop, fillWithin_of_le hsplits 0 _ hbound (by simpa using hle)]
        rfl
      · intro hlt hstrict
        rw [hloop, hstrict, fillWithin_of_lt hsplits 0 _ hbound (by simpa using hlt)]
        simp [Except.map]
      · intro hlt hlenient
        rw [hloop, hlenient, fillWithin_lenient hsplits 0 _ hbound]
        simp [Except.map]
      · intro bound hpasses
        rw [hloop, fillWithin_of_bounds hsplits 0 _ bound hbound hpasses]
    · intro h
      obtain ⟨rfl, rfl⟩ := h
      exact hsplits

/-- A marker that overlaps itself, and an argument that makes another one with what follows
it: the text splits at two markers, and neither of them is the one that is made. -/
theorem substitute_exact_overlapping :
    SplitsAt "aa".toList "aaaxaab".toList [] [['a', 'x'], ['b']] ∧
    substitute ⟨"aa", true⟩ "aaaxaab" ["a"] = .error (.missingArgument "aaaxaab" 2 1) ∧
    substitute ⟨"aa", false⟩ "aaaxaab" ["a"] = .ok "aaxaab" := by
  have hsplits : SplitsAt "aa".toList "aaaxaab".toList [] [['a', 'x'], ['b']] := by
    refine .marked _ _ "axaab".toList _ _ (by decide) (noneBefore_zero _ _) ?_
    refine .marked _ _ ['b'] _ _ (by decide) ?_ (.unmarked _ (by decide))
    unfold NoneBefore
    decide
  have houtcome : ∀ strict, Outcome ⟨"aa", strict⟩ "aaaxaab" ["a"] [] [['a', 'x'], ['b']] := by
    intro strict
    obtain ⟨first, rest, houtcome, hunique⟩ :=
      (substitute_exact ⟨"aa", strict⟩ "aaaxaab" ["a"]).2 (by simp) (by simp)
    obtain ⟨rfl, rfl⟩ := (hunique [] [['a', 'x'], ['b']]).mp hsplits
    exact houtcome
  exact ⟨hsplits, (houtcome true).strict_of_lt (by decide) rfl,
    (houtcome false).lenient_of_lt (by decide) rfl⟩

end XPathQuery.Template
