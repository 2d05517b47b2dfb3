import XPathQuery.Proofs.TextSearch
import XPathQuery.Proofs.TypeSoundness

/-!
What can go wrong in an evaluation. A call that binding has accepted finds its function
and every argument it takes, so only a value of the wrong type is left to fail with, at
any depth of an expression. The table against which calls are bound, the arities checked
before a call and the functions found by name are the same, and the texts around an
occurrence are cut between characters.
-/
namespace XPathQuery

def FailsByType {α : Type} (result : Except XPathError α) : Prop :=
  ∀ error, result = .error error → ∃ fault, error = .type fault

namespace FailsByType

theorem ok {α : Type} (a : α) : FailsByType (.ok a) := by
  intro error h
  cases h

theorem type {α : Type} (fault : TypeFault) :
    FailsByType (.error (.type fault) : Except XPathError α) := by
  intro error h
  exact ⟨fault, (Except.error.inj h).symm⟩

theorem bind {α β : Type} {first : Except XPathError α} {next : α → Except XPathError β}
    (hfirst : FailsByType first) (hnext : ∀ a, FailsByType (next a)) :
    FailsByType (first >>= next) := by
  cases first with
  | error error =>
    intro other h
    obtain ⟨fault, rfl⟩ := hfirst error rfl
    exact ⟨fault, (Except.error.inj h).symm⟩
  | ok a => exact hnext a

theorem ok_or_type {α : Type} {result : Except XPathError α} (h : FailsByType result) :
    (∃ a, result = .ok a) ∨ ∃ fault, result = .error (.type fault) := by
  cases result with
  | ok a => exact Or.inl ⟨a, rfl⟩
  | error error =>
    obtain ⟨fault, rfl⟩ := h error rfl
    exact Or.inr ⟨fault, rfl⟩

end FailsByType

namespace CoreFunction

section Apply
variable (tree : Tree) (context : Context) (f : CoreFunction) (arguments : List Value)

theorem argument_failsByType (index : Nat) (h : index < arguments.length) :
    FailsByType (f.argument arguments index) := by
  obtain ⟨value, hvalue⟩ := argument_succeeds f arguments index h
  rw [hvalue]
  exact FailsByType.ok value

theorem map_argument_failsByType {α : Type} (convert : Value → α) (index : Nat)
    (h : index < arguments.length) :
    FailsByType ((f.argument arguments index).map convert) := by
  obtain ⟨a, ha⟩ := map_argument_succeeds f arguments convert index h
  rw [ha]
  exact FailsByType.ok a

theorem nodeSet_failsByType (value : Value) : FailsByType (f.nodeSet value) := by
  cases value with
  | nodes addresses => exact FailsByType.ok addresses
  | scalar found => exact FailsByType.type _

theorem chosenNode_failsByType : FailsByType (f.chosenNode context arguments) := by
  cases arguments with
  | nil => exact FailsByType.ok _
  | cons value rest =>
    cases value with
    | nodes addresses => exact FailsByType.ok _
    | scalar found => exact FailsByType.type _

/-- A function that has a number of arguments it accepts finds each of them. -/
theorem apply_failsByType (haccepts : f.arity.accepts arguments.length = true) :
    FailsByType (f.apply tree context arguments) := by
  have hleast := least_le_of_accepts f.arity arguments.length haccepts
  cases f
  case last | position | string | concat | stringLength | normalizeSpace | truth | falsehood |
      number =>
    exact FailsByType.ok _
  case count | sum =>
    refine FailsByType.bind (argument_failsByType _ arguments 0 hleast) fun value => ?_
    exact FailsByType.bind (nodeSet_failsByType _ value) fun _ => FailsByType.ok _
  case localName | namespaceUri | name =>
    exact FailsByType.bind (chosenNode_failsByType context _ arguments) fun _ => FailsByType.ok _
  case boolean | negation | lang | floor | ceiling | round =>
    exact FailsByType.bind (map_argument_failsByType _ arguments _ 0 hleast) fun _ =>
      FailsByType.ok _
  case startsWith | contains | substringBefore | substringAfter =>
    refine FailsByType.bind
      (map_argument_failsByType _ arguments _ 0 (Nat.lt_of_succ_lt hleast)) fun _ => ?_
    exact FailsByType.bind (map_argument_failsByType _ arguments _ 1 hleast) fun _ =>
      FailsByType.ok _
  case substring =>
    refine FailsByType.bind
      (map_argument_failsByType _ arguments _ 0 (Nat.lt_of_succ_lt hleast)) fun _ => ?_
    refine FailsByType.bind (map_argument_failsByType _ arguments _ 1 hleast) fun _ => ?_
    split
    · rename_i hlength
      refine FailsByType.bind (map_argument_failsByType _ arguments _ 2 (by omega)) fun _ => ?_
      exact FailsByType.bind (FailsByType.ok _) fun _ => FailsByType.ok _
    · exact FailsByType.bind (FailsByType.ok _) fun _ => FailsByType.ok _
  case translate =>
    change 3 ≤ arguments.length at hleast
    refine FailsByType.bind (map_argument_failsByType _ arguments _ 0 (by omega)) fun _ => ?_
    refine FailsByType.bind (map_argument_failsByType _ arguments _ 1 (by omega)) fun _ => ?_
    exact FailsByType.bind (map_argument_failsByType _ arguments _ 2 hleast) fun _ =>
      FailsByType.ok _

end Apply

end CoreFunction

namespace Registry

/-- The entries of the core registry registered one after the other. A later one would take
the place of an earlier one with its name. -/
def registered : Registry :=
  core.foldl (fun registry entry => registry.register entry.1 entry.2) empty

theorem get?_register (registry : Registry) (added name : String) (arity : Arity) :
    (registry.register added arity).get? name =
      if added = name then some arity else registry.get? name := by
  by_cases h : added = name
  · rw [if_pos h, ← h, get?_register_self]
  · have hfilter : (registry.filter fun entry => entry.1 != added).find?
        (fun entry => entry.1 == name) = registry.find? fun entry => entry.1 == name := by
      rw [List.find?_filter]
      congr 1
      funext entry
      by_cases hentry : entry.1 = name
      · simp [hentry, Ne.symm h]
      · simp [hentry]
    simp only [register, get?, List.find?_cons, beq_eq_false_iff_ne.mpr h, hfilter, if_neg h]

/-- Functions with different names do not disturb each other in a registry. -/
theorem get?_foldl_register (entries registry : Registry) (name : String)
    (hdistinct : (entries.map Prod.fst).Nodup) :
    (entries.foldl (fun registry entry => registry.register entry.1 entry.2) registry).get?
      name = (entries.get? name).or (registry.get? name) := by
  induction entries generalizing registry with
  | nil => rfl
  | cons entry rest ih =>
    obtain ⟨hfirst, hrest⟩ := List.nodup_cons.mp hdistinct
    rw [List.foldl_cons, ih _ hrest, get?_register]
    by_cases h : entry.1 = name
    · have hnone : rest.find? (fun other => other.1 == name) = none := by
        rw [List.find?_eq_none]
        intro other hother hname
        exact hfirst (List.mem_map.mpr ⟨other, hother, (beq_iff_eq.mp hname).trans h.symm⟩)
      simp [get?, h, hnone]
    · simp [get?, h]

theorem core_nodup : (core.map Prod.fst).Nodup := by decide

/-- Looking a function up does not depend on whether the first or the last entry with a
name counts, because no name has two. -/
theorem get?_registered (name : String) : registered.get? name = core.get? name := by
  rw [registered, get?_foldl_register core empty name core_nodup]
  exact Option.or_none

theorem validate_eq_error (registry : Registry) (name : String) (count : Nat)
    (error : XPathError) (h : registry.validate name count = .error error) :
    error = .unknownFunction name ∨ ∃ arity, error = .wrongArity name arity := by
  unfold validate at h
  split at h
  · exact Or.inl (Except.error.inj h).symm
  · rename_i arity _
    split at h
    · cases h
    · exact Or.inr ⟨arity, (Except.error.inj h).symm⟩

end Registry

section Calls
variable (tree : Tree) (context : Context) (function : String) (arguments : List Value)

theorem callFunction_failsByType
    (hvalid : Registry.core.validate function arguments.length = .ok ()) :
    FailsByType (callFunction tree context function arguments) := by
  obtain ⟨f, hf, haccepts⟩ := (Registry.validate_core_eq_ok_iff _ _).mp hvalid
  simp only [callFunction, hvalid, hf]
  exact f.apply_failsByType tree context arguments haccepts

/-- Whatever is called with whatever arguments, none is taken that is not there. -/
theorem callFunction_ne_missingArgument (f : String) (index : Nat) :
    callFunction tree context function arguments ≠ .error (.missingArgument f index) := by
  intro h
  cases hvalid : Registry.core.validate function arguments.length with
  | ok u =>
    obtain ⟨fault, hfault⟩ := callFunction_failsByType tree context function arguments hvalid _ h
    cases hfault
  | error error =>
    have herror : error = .missingArgument f index := by
      simpa only [callFunction, hvalid, Except.error.injEq] using h
    rcases Registry.core.validate_eq_error function arguments.length error hvalid with
      hunknown | ⟨arity, harity⟩
    · cases herror.symm.trans hunknown
    · cases herror.symm.trans harity

end Calls

section Evaluation
variable (tree : Tree)

theorem gather_failsByType (follow : Address → Except XPathError (List Address))
    (nodes : List Address) (h : ∀ node, FailsByType (follow node)) :
    FailsByType (gather follow nodes) := by
  induction nodes with
  | nil => exact FailsByType.ok _
  | cons node rest ih =>
    exact FailsByType.bind (h node) fun _ => FailsByType.bind ih fun _ => FailsByType.ok _

theorem keepNodes_failsByType (predicate : Context → Except XPathError Value) (root : Address)
    (size position : Nat) (nodes : List Address) (h : ∀ context, FailsByType (predicate context)) :
    FailsByType (keepNodes predicate root size position nodes) := by
  induction nodes generalizing position with
  | nil => exact FailsByType.ok _
  | cons node rest ih =>
    exact FailsByType.bind (h _) fun _ => FailsByType.bind (ih _) fun _ => FailsByType.ok _

def Expr.FailsByType (e : Expr) : Prop :=
  ∀ context, XPathQuery.FailsByType (evaluate tree e context)

theorem narrow_failsByType (predicates : List Expr) (root : Address) (nodes : List Address)
    (h : ∀ predicate ∈ predicates, predicate.FailsByType tree) :
    FailsByType (narrow tree predicates root nodes) := by
  induction predicates generalizing nodes with
  | nil =>
    rw [narrow_nil]
    exact FailsByType.ok nodes
  | cons predicate rest ih =>
    obtain ⟨hpredicate, hrest⟩ := List.forall_mem_cons.mp h
    rw [narrow]
    exact FailsByType.bind (keepNodes_failsByType _ root _ 1 nodes hpredicate) fun kept =>
      ih kept hrest

theorem walk_failsByType (steps : List Step) (root : Address) (nodes : List Address)
    (h : ∀ step ∈ steps, ∀ predicate ∈ step.predicates, predicate.FailsByType tree) :
    FailsByType (walk tree steps root nodes) := by
  induction steps generalizing nodes with
  | nil =>
    rw [walk_nil]
    exact FailsByType.ok nodes
  | cons step rest ih =>
    obtain ⟨hstep, hrest⟩ := List.forall_mem_cons.mp h
    cases step with
    | step axis test predicates =>
      rw [walk]
      exact FailsByType.bind
        (gather_failsByType _ nodes fun node => narrow_failsByType tree predicates root _ hstep)
        fun reached => ih _ hrest

theorem evaluateAll_failsByType (es : List Expr) (context : Context)
    (h : ∀ e ∈ es, e.FailsByType tree) : FailsByType (evaluateAll tree es context) := by
  induction es with
  | nil =>
    rw [evaluateAll_nil]
    exact FailsByType.ok _
  | cons e rest ih =>
    obtain ⟨he, hrest⟩ := List.forall_mem_cons.mp h
    rw [evaluateAll]
    exact FailsByType.bind (he context) fun _ =>
      FailsByType.bind (ih hrest) fun _ => FailsByType.ok _

theorem requireNodes_failsByType (value : Value) (place : NodeSetPlace) :
    FailsByType (value.requireNodes place) := by
  cases value with
  | nodes addresses => exact FailsByType.ok addresses
  | scalar s => exact FailsByType.type _

theorem startNodes_failsByType (start : PathStart) (context : Context)
    (h : ∀ part ∈ start.parts, part.FailsByType tree) :
    FailsByType (startNodes tree start context) := by
  cases start with
  | root =>
    rw [startNodes_root]
    exact FailsByType.ok _
  | context =>
    rw [startNodes_context]
    exact FailsByType.ok _
  | expr e =>
    rw [startNodes]
    exact FailsByType.bind (h e List.mem_cons_self context) fun value =>
      requireNodes_failsByType value _

theorem Operator.apply_failsByType (operator : Operator) (left right : Value) :
    FailsByType (operator.apply tree left right) := by
  cases operator with
  | union =>
    cases left with
    | scalar s => exact FailsByType.type _
    | nodes l =>
      cases right with
      | scalar s => exact FailsByType.type _
      | nodes r => exact FailsByType.ok _
  | or => exact FailsByType.ok _
  | and => exact FailsByType.ok _
  | comparison relation => exact FailsByType.ok _
  | arithmetic operation => exact FailsByType.ok _

theorem binary_failsByType (operator : Operator) (left right : Expr)
    (hleft : left.FailsByType tree) (hright : right.FailsByType tree) :
    (Expr.binary operator left right).FailsByType tree := by
  intro context
  rw [evaluate]
  refine FailsByType.bind (hleft context) fun value => ?_
  split
  · split
    · exact FailsByType.ok _
    · exact FailsByType.bind (hright context) fun _ => FailsByType.ok _
  · split
    · exact FailsByType.bind (hright context) fun _ => FailsByType.ok _
    · exact FailsByType.ok _
  · exact FailsByType.bind (hright context) fun other =>
      operator.apply_failsByType tree value other

theorem call_failsByType (function : String) (arguments : List Expr)
    (haccepted : (Expr.call function arguments).CallAccepted Registry.core)
    (harguments : ∀ argument ∈ arguments, argument.FailsByType tree) :
    (Expr.call function arguments).FailsByType tree := by
  intro context error h
  rw [evaluate] at h
  cases hvalues : evaluateAll tree arguments context with
  | error failure =>
    rw [hvalues] at h
    obtain rfl := Except.error.inj h
    exact evaluateAll_failsByType tree arguments context harguments failure hvalues
  | ok values =>
    have hvalid : Registry.core.validate function values.length = .ok () := by
      rw [length_of_evaluateAll tree arguments context values hvalues]
      exact haccepted
    rw [hvalues] at h
    exact callFunction_failsByType tree context function values hvalid error h

/-- An expression whose calls are accepted at every depth only fails by a type. -/
theorem evaluate_failsByType (e : Expr)
    (haccepted : e.Everywhere (Expr.CallAccepted Registry.core)) : e.FailsByType tree := by
  induction e using Expr.induct with
  | step e ih =>
    obtain ⟨haccepted, hacceptedParts⟩ := (Expr.everywhere_iff _ e).mp haccepted
    have hparts : ∀ part ∈ e.parts, part.FailsByType tree := fun part hpart =>
      ih part hpart (hacceptedParts part hpart)
    cases e with
    | literal text =>
      intro context
      rw [evaluate_literal]
      exact FailsByType.ok _
    | number value =>
      intro context
      rw [evaluate_number]
      exact FailsByType.ok _
    | path start steps =>
      intro context
      rw [evaluate]
      refine FailsByType.bind (startNodes_failsByType tree start context fun part hpart =>
        hparts part (List.mem_append_left _ hpart)) fun nodes => ?_
      refine FailsByType.bind (walk_failsByType tree steps context.root nodes ?_) fun _ =>
        FailsByType.ok _
      intro step hstep predicate hpredicate
      exact hparts predicate
        (List.mem_append_right _ (List.mem_flatMap.mpr ⟨step, hstep, hpredicate⟩))
    | filter base predicates =>
      intro context
      obtain ⟨hbase, hpredicates⟩ := List.forall_mem_cons.mp hparts
      rw [evaluate]
      refine FailsByType.bind (hbase context) fun value => ?_
      refine FailsByType.bind (requireNodes_failsByType value _) fun nodes => ?_
      exact FailsByType.bind (narrow_failsByType tree predicates context.root nodes hpredicates)
        fun _ => FailsByType.ok _
    | call function arguments =>
      exact call_failsByType tree function arguments haccepted hparts
    | binary operator left right =>
      exact binary_failsByType tree operator left right (hparts left (by simp [Expr.parts]))
        (hparts right (by simp [Expr.parts]))
    | negate operand =>
      intro context
      rw [evaluate]
      exact FailsByType.bind (hparts operand (List.mem_singleton_self operand) context) fun _ =>
        FailsByType.ok _

end Evaluation

namespace Text

/-- The texts before and after an occurrence are cut out of the whole text at places
between characters. -/
theorem splitAt?_slices (part whole : String) (before after : List Char)
    (h : splitAt? part.toList whole.toList = some (before, after)) :
    ∃ start stop : whole.Pos, start ≤ stop ∧ stop.offset = start.offset + part ∧
      String.ofList before = (whole.sliceTo start).copy ∧
      String.ofList after = (whole.sliceFrom stop).copy := by
  have hwhole : whole = String.ofList before ++ part ++ String.ofList after := by
    apply String.toList_injective
    simpa using eq_append_of_splitAt? part.toList whole.toList before after h
  have hassoc : whole = String.ofList before ++ (part ++ String.ofList after) := by
    rw [← String.append_assoc]
    exact hwhole
  let start : whole.Pos := ⟨(String.ofList before).rawEndPos,
    String.Pos.Raw.isValid_iff_exists_append.mpr ⟨_, _, hassoc, rfl⟩⟩
  let stop : whole.Pos := ⟨(String.ofList before ++ part).rawEndPos,
    String.Pos.Raw.isValid_iff_exists_append.mpr ⟨_, _, hwhole, rfl⟩⟩
  have hstart : start.Splits (String.ofList before) (part ++ String.ofList after) := ⟨hassoc, rfl⟩
  have hstop : stop.Splits (String.ofList before ++ part) (String.ofList after) := ⟨hwhole, rfl⟩
  refine ⟨start, stop, ?_, ?_, hstart.eq_left start.splits, hstop.eq_right stop.splits⟩
  · have hle : ∀ first : String, first.rawEndPos ≤ (first ++ part).rawEndPos := by
      intro first
      simp [String.Pos.Raw.le_iff]
    exact String.Pos.le_iff.mpr (hle (String.ofList before))
  · have hend : ∀ first : String, (first ++ part).rawEndPos = first.rawEndPos + part := by
      intro first
      simp [String.Pos.Raw.ext_iff]
    exact hend (String.ofList before)

end Text

namespace Compiled

/-- An evaluation of a compiled expression ends with a value or fails by a type. Binding
and calling accept the same calls, which are those of a function found by name with a
number of arguments it takes. No call at all takes an argument that is not there, and
texts are cut between characters. -/
theorem evaluate_only_type_errors (resolver : Resolver) (source : String) (compiled : Compiled)
    (hcompiled : ofSource resolver source = .ok compiled) :
    (∀ tree context, (∃ value, XPathQuery.evaluate tree compiled.expr context = .ok value) ∨
      ∃ fault, XPathQuery.evaluate tree compiled.expr context = .error (.type fault)) ∧
    (∀ sub : Expr, sub.Within compiled.expr → sub.CallAccepted Registry.core) ∧
    (∀ name count, Registry.core.validate name count = .ok () ↔
      ∃ f, CoreFunction.ofName? name = some f ∧ f.arity.accepts count = true) ∧
    (∀ name, Registry.registered.get? name = Registry.core.get? name) ∧
    (∀ tree context name arguments f index,
      callFunction tree context name arguments ≠ .error (.missingArgument f index)) ∧
    ∀ (part whole : String) before after,
      Text.splitAt? part.toList whole.toList = some (before, after) →
      ∃ start stop : whole.Pos, start ≤ stop ∧ stop.offset = start.offset + part ∧
        String.ofList before = (whole.sliceTo start).copy ∧
        String.ofList after = (whole.sliceFrom stop).copy := by
  obtain ⟨e, bound, _, hbind, rfl⟩ := (ofSource_eq_ok resolver source compiled).mp hcompiled
  have haccepted := e.everywhere_callAccepted_of_bind resolver Registry.core bound hbind
  refine ⟨fun tree context => ?_, haccepted, Registry.validate_core_eq_ok_iff,
    Registry.get?_registered, callFunction_ne_missingArgument, Text.splitAt?_slices⟩
  exact (evaluate_failsByType tree bound haccepted context).ok_or_type

/-- A text that is counted in a predicate compiles, and fails by its type. -/
theorem evaluate_only_type_errors_count :
    ∃ compiled fault,
      ofSource (fun _ => none) ".[count(substring-before('ab','b'))]" = .ok compiled ∧
      XPathQuery.evaluate (.node ⟨.root, none, none, "", []⟩ [] []) compiled.expr (.ofNode []) =
        .error (.type fault) := by
  have hsucceeds :
      (ofSource (fun _ => none) ".[count(substring-before('ab','b'))]").isOk = true := by
    decide +kernel
  have hfails : ((ofSource (fun _ => none) ".[count(substring-before('ab','b'))]").bind
      fun compiled => XPathQuery.evaluate (.node ⟨.root, none, none, "", []⟩ [] []) compiled.expr
        (.ofNode [])).isOk = false := by
    decide +kernel
  cases hcompiled : ofSource (fun _ => none) ".[count(substring-before('ab','b'))]" with
  | error error =>
    rw [hcompiled] at hsucceeds
    cases hsucceeds
  | ok compiled =>
    obtain ⟨houtcome, _⟩ := evaluate_only_type_errors _ _ compiled hcompiled
    rcases houtcome (.node ⟨.root, none, none, "", []⟩ [] []) (.ofNode []) with
      ⟨value, hvalue⟩ | ⟨fault, hfault⟩
    · rw [hcompiled, Except.bind, hvalue] at hfails
      cases hfails
    · exact ⟨compiled, fault, rfl, hfault⟩

end Compiled

end XPathQuery
