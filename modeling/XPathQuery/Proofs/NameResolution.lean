import XPathQuery.Proofs.Subexpressions
import XPathQuery.Proofs.TypeSoundness

/-!
Binding is a check followed by a replacement. The names an expression uses, which are
the prefixes of its tests and its calls, are listed in the order in which they are read.
Binding succeeds when all of them are accepted and then only fills in the namespaces of
the prefixed tests; otherwise the first name that is not accepted is the error.
-/
namespace XPathQuery

inductive NameUse
  | nsPrefix (nsPrefix : String)
  | call (function : String) (count : Nat)

def NodeTest.uses : NodeTest → List NameUse
  | .name (some nsPrefix) _ _ => [.nsPrefix nsPrefix]
  | .namespaceWildcard nsPrefix _ => [.nsPrefix nsPrefix]
  | _ => []

def NodeTest.resolve (resolver : Resolver) : NodeTest → NodeTest
  | .name (some nsPrefix) localPart _ => .name (some nsPrefix) localPart (resolver nsPrefix)
  | .name none localPart _ => .name none localPart none
  | .namespaceWildcard nsPrefix _ => .namespaceWildcard nsPrefix (resolver nsPrefix)
  | test => test

mutual

/-- The names an expression uses, from left to right. A call comes before its arguments,
the start of a path before its steps and a test before its predicates. -/
def Expr.uses : Expr → List NameUse
  | .literal _ => []
  | .number _ => []
  | .path start steps => start.uses ++ usesOfSteps steps
  | .filter base predicates => base.uses ++ usesOfAll predicates
  | .call function arguments => .call function arguments.length :: usesOfAll arguments
  | .binary _ left right => left.uses ++ right.uses
  | .negate operand => operand.uses

def PathStart.uses : PathStart → List NameUse
  | .root => []
  | .context => []
  | .expr e => e.uses

def usesOfSteps : List Step → List NameUse
  | [] => []
  | .step _ test predicates :: rest => test.uses ++ (usesOfAll predicates ++ usesOfSteps rest)

def usesOfAll : List Expr → List NameUse
  | [] => []
  | e :: rest => e.uses ++ usesOfAll rest

end

section MapTests
variable (f : NodeTest → NodeTest)

mutual

def Expr.mapTests : Expr → Expr
  | .literal text => .literal text
  | .number value => .number value
  | .path start steps => .path start.mapTests (mapTestsOfSteps steps)
  | .filter base predicates => .filter base.mapTests (mapTestsOfAll predicates)
  | .call function arguments => .call function (mapTestsOfAll arguments)
  | .binary operator left right => .binary operator left.mapTests right.mapTests
  | .negate operand => .negate operand.mapTests

def PathStart.mapTests : PathStart → PathStart
  | .root => .root
  | .context => .context
  | .expr e => .expr e.mapTests

def mapTestsOfSteps : List Step → List Step
  | [] => []
  | .step axis test predicates :: rest =>
      .step axis (f test) (mapTestsOfAll predicates) :: mapTestsOfSteps rest

def mapTestsOfAll : List Expr → List Expr
  | [] => []
  | e :: rest => e.mapTests :: mapTestsOfAll rest

end

end MapTests

namespace NameUse

/-- A prefix stands for a namespace with a name; a call is one of a core function with a
number of arguments it takes. -/
def Accepted (resolver : Resolver) : NameUse → Prop
  | nsPrefix p => ∃ uri, resolver p = some uri ∧ uri ≠ ""
  | call function count =>
      ∃ f, CoreFunction.ofName? function = some f ∧ f.arity.accepts count = true

def error : NameUse → XPathError
  | nsPrefix p => .unboundPrefix p
  | call function _ =>
      match CoreFunction.ofName? function with
      | none => .unknownFunction function
      | some f => .wrongArity function f.arity

def check (resolver : Resolver) : NameUse → Except XPathError Unit
  | nsPrefix p => (NodeTest.bindPrefix resolver p).map fun _ => ()
  | call function count => Registry.core.validate function count

theorem check_of_accepted (resolver : Resolver) (use : NameUse) (h : use.Accepted resolver) :
    use.check resolver = .ok () := by
  cases use with
  | nsPrefix p =>
    obtain ⟨uri, huri, hne⟩ := h
    simp [check, NodeTest.bindPrefix, huri, hne, Except.map]
  | call function count => exact (Registry.validate_core_eq_ok_iff function count).mpr h

theorem check_of_not_accepted (resolver : Resolver) (use : NameUse)
    (h : ¬use.Accepted resolver) : use.check resolver = .error use.error := by
  cases use with
  | nsPrefix p =>
    simp only [check, NodeTest.bindPrefix, error]
    cases huri : resolver p with
    | none => rfl
    | some uri =>
      have hempty : uri = "" := by
        by_contra hne
        exact h ⟨uri, huri, hne⟩
      simp [hempty, Except.map]
  | call function count =>
    simp only [check, Registry.validate, Registry.get?_core, error]
    cases hf : CoreFunction.ofName? function with
    | none => rfl
    | some f =>
      have haccepts : f.arity.accepts count = false := by
        by_contra hne
        exact h ⟨f, hf, by simpa using hne⟩
      simp [haccepts]

theorem check_eq_ok_iff (resolver : Resolver) (use : NameUse) :
    use.check resolver = .ok () ↔ use.Accepted resolver := by
  constructor
  · intro h
    by_contra hnot
    rw [check_of_not_accepted resolver use hnot] at h
    cases h
  · exact check_of_accepted resolver use

end NameUse

def checkUses (resolver : Resolver) : List NameUse → Except XPathError Unit
  | [] => .ok ()
  | use :: rest => do
      use.check resolver
      checkUses resolver rest

section CheckUses
variable (resolver : Resolver)

theorem checkUses_append (uses more : List NameUse) :
    checkUses resolver (uses ++ more) =
      (checkUses resolver uses >>= fun _ => checkUses resolver more) := by
  induction uses with
  | nil => rfl
  | cons use rest ih =>
    simp only [List.cons_append, checkUses, ih, bind_assoc]

theorem checkUses_eq_ok_iff (uses : List NameUse) :
    checkUses resolver uses = .ok () ↔ ∀ use ∈ uses, use.Accepted resolver := by
  induction uses with
  | nil => simp [checkUses]
  | cons use rest ih =>
    simp only [checkUses, bind_eq_ok, List.forall_mem_cons, ih, exists_and_right,
      ← NameUse.check_eq_ok_iff resolver use]
    exact and_congr_left fun _ => ⟨fun ⟨_, h⟩ => h, fun h => ⟨(), h⟩⟩

/-- A failing check fails with the first name that is not accepted. -/
theorem checkUses_eq_error_iff (uses : List NameUse) (error : XPathError) :
    checkUses resolver uses = .error error ↔
      ∃ before use after, uses = before ++ use :: after ∧
        (∀ u ∈ before, u.Accepted resolver) ∧ ¬use.Accepted resolver ∧ error = use.error := by
  induction uses with
  | nil => simp [checkUses]
  | cons use rest ih =>
    by_cases haccepted : use.Accepted resolver
    · have hstep : checkUses resolver (use :: rest) = checkUses resolver rest := by
        rw [checkUses, use.check_of_accepted resolver haccepted]
        rfl
      rw [hstep, ih]
      constructor
      · rintro ⟨before, first, after, rfl, hbefore, hfirst⟩
        exact ⟨use :: before, first, after, rfl, List.forall_mem_cons.mpr ⟨haccepted, hbefore⟩,
          hfirst⟩
      · rintro ⟨before, first, after, huses, hbefore, hfirst⟩
        cases before with
        | nil =>
          obtain ⟨rfl, rfl⟩ := List.cons.inj huses
          exact absurd haccepted hfirst.1
        | cons u before =>
          obtain ⟨rfl, rfl⟩ := List.cons.inj huses
          exact ⟨before, first, after, rfl, (List.forall_mem_cons.mp hbefore).2, hfirst⟩
    · have hstep : checkUses resolver (use :: rest) = .error use.error := by
        rw [checkUses, use.check_of_not_accepted resolver haccepted]
        rfl
      rw [hstep, Except.error.injEq]
      constructor
      · rintro rfl
        exact ⟨[], use, rest, rfl, by simp, haccepted, rfl⟩
      · rintro ⟨before, first, after, huses, hbefore, _, rfl⟩
        cases before with
        | nil =>
          obtain ⟨rfl, rfl⟩ := List.cons.inj huses
          rfl
        | cons u before =>
          obtain ⟨rfl, rfl⟩ := List.cons.inj huses
          exact absurd (hbefore _ List.mem_cons_self) haccepted

theorem NodeTest.bind_eq (test : NodeTest) :
    test.bind resolver =
      (checkUses resolver test.uses >>= fun _ => .ok (test.resolve resolver)) := by
  have hprefixed : ∀ (p : String) (make : Option String → NodeTest),
      (NodeTest.bindPrefix resolver p >>= fun uri => .ok (make (some uri))) =
        (checkUses resolver [.nsPrefix p] >>= fun _ => .ok (make (resolver p))) := by
    intro p make
    simp only [checkUses, NameUse.check, NodeTest.bindPrefix]
    cases resolver p with
    | none => rfl
    | some uri =>
      dsimp only
      by_cases hempty : uri = ""
      · rw [if_pos hempty]
        rfl
      · rw [if_neg hempty]
        rfl
  cases test with
  | name nsPrefix localPart uri =>
    cases nsPrefix with
    | none => rfl
    | some p => exact hprefixed p fun uri => .name (some p) localPart uri
  | namespaceWildcard p uri => exact hprefixed p fun uri => .namespaceWildcard p uri
  | _ => rfl

mutual

/-- Binding checks all names first and then fills in the namespaces. -/
theorem Expr.bind_eq (e : Expr) :
    e.bind resolver Registry.core =
      (checkUses resolver e.uses >>= fun _ => .ok (e.mapTests (NodeTest.resolve resolver))) := by
  cases e with
  | literal text => rfl
  | number value => rfl
  | path start steps =>
    simp only [Expr.bind, Expr.uses, Expr.mapTests, checkUses_append, bind_assoc,
      PathStart.bind_eq start, bindSteps_eq steps]
    rfl
  | filter base predicates =>
    simp only [Expr.bind, Expr.uses, Expr.mapTests, checkUses_append, bind_assoc,
      Expr.bind_eq base, bindAll_eq predicates]
    rfl
  | call function arguments =>
    simp only [Expr.bind, Expr.uses, Expr.mapTests, checkUses, NameUse.check, bind_assoc,
      bindAll_eq arguments]
    rfl
  | binary operator left right =>
    simp only [Expr.bind, Expr.uses, Expr.mapTests, checkUses_append, bind_assoc,
      Expr.bind_eq left, Expr.bind_eq right]
    rfl
  | negate operand =>
    simp only [Expr.bind, Expr.uses, Expr.mapTests, bind_assoc, Expr.bind_eq operand]
    rfl

theorem PathStart.bind_eq (start : PathStart) :
    start.bind resolver Registry.core =
      (checkUses resolver start.uses >>= fun _ =>
        .ok (start.mapTests (NodeTest.resolve resolver))) := by
  cases start with
  | root => rfl
  | context => rfl
  | expr e =>
    simp only [PathStart.bind, PathStart.uses, PathStart.mapTests, bind_assoc, Expr.bind_eq e]
    rfl

theorem bindSteps_eq (steps : List Step) :
    bindSteps resolver Registry.core steps =
      (checkUses resolver (usesOfSteps steps) >>= fun _ =>
        .ok (mapTestsOfSteps (NodeTest.resolve resolver) steps)) := by
  cases steps with
  | nil => rfl
  | cons step rest =>
    cases step with
    | step axis test predicates =>
      simp only [bindSteps, usesOfSteps, mapTestsOfSteps, checkUses_append, bind_assoc,
        NodeTest.bind_eq resolver test, bindAll_eq predicates, bindSteps_eq rest]
      rfl

theorem bindAll_eq (es : List Expr) :
    bindAll resolver Registry.core es =
      (checkUses resolver (usesOfAll es) >>= fun _ =>
        .ok (mapTestsOfAll (NodeTest.resolve resolver) es)) := by
  cases es with
  | nil => rfl
  | cons e rest =>
    simp only [bindAll, usesOfAll, mapTestsOfAll, checkUses_append, bind_assoc,
      Expr.bind_eq e, bindAll_eq rest]
    rfl

end

end CheckUses

def Expr.ownUses : Expr → List NameUse
  | .path _ steps => steps.flatMap fun step => step.test.uses
  | .call function arguments => [.call function arguments.length]
  | _ => []

theorem mem_usesOfAll (es : List Expr) (use : NameUse) :
    use ∈ usesOfAll es ↔ ∃ e ∈ es, use ∈ e.uses := by
  induction es with
  | nil => simp [usesOfAll]
  | cons e rest ih => simp [usesOfAll, ih]

theorem mem_usesOfSteps (steps : List Step) (use : NameUse) :
    use ∈ usesOfSteps steps ↔
      use ∈ steps.flatMap (fun step => step.test.uses) ∨
        ∃ e ∈ steps.flatMap Step.predicates, use ∈ e.uses := by
  induction steps with
  | nil => simp [usesOfSteps]
  | cons step rest ih =>
    cases step with
    | step axis test predicates =>
      have htests : (Step.step axis test predicates :: rest).flatMap (fun step => step.test.uses) =
          test.uses ++ rest.flatMap fun step => step.test.uses := rfl
      have hparts : (Step.step axis test predicates :: rest).flatMap Step.predicates =
          predicates ++ rest.flatMap Step.predicates := rfl
      simp only [usesOfSteps, htests, hparts, List.mem_append, mem_usesOfAll, ih, or_and_right,
        exists_or]
      exact (or_congr_right or_left_comm).trans or_assoc.symm

/-- The names an expression uses are its own and those of its parts. -/
theorem Expr.mem_uses_iff_parts (e : Expr) (use : NameUse) :
    use ∈ e.uses ↔ use ∈ e.ownUses ∨ ∃ part ∈ e.parts, use ∈ part.uses := by
  cases e with
  | literal text => simp [uses, ownUses, parts]
  | number value => simp [uses, ownUses, parts]
  | path start steps =>
    cases start with
    | root => simp [uses, ownUses, parts, PathStart.uses, PathStart.parts, mem_usesOfSteps]
    | context => simp [uses, ownUses, parts, PathStart.uses, PathStart.parts, mem_usesOfSteps]
    | expr e =>
      simp only [uses, ownUses, parts, PathStart.uses, PathStart.parts, List.mem_append,
        List.mem_singleton, mem_usesOfSteps, or_and_right, exists_or, exists_eq_left]
      tauto
  | filter base predicates => simp [uses, ownUses, parts, mem_usesOfAll]
  | call function arguments => simp [uses, ownUses, parts, mem_usesOfAll]
  | binary operator left right => simp [uses, ownUses, parts]
  | negate operand => simp [uses, ownUses, parts]

/-- Listing the names reaches every subexpression. -/
theorem Expr.mem_uses_iff (e : Expr) (use : NameUse) :
    use ∈ e.uses ↔ ∃ sub, Within sub e ∧ use ∈ sub.ownUses := by
  induction e using Expr.induct with
  | step e ih =>
    rw [mem_uses_iff_parts]
    constructor
    · rintro (h | ⟨part, hpart, h⟩)
      · exact ⟨e, within_refl e, h⟩
      · obtain ⟨sub, hsub, huse⟩ := (ih part hpart).mp h
        exact ⟨sub, within_of_mem_parts hpart hsub, huse⟩
    · rintro ⟨sub, hsub, huse⟩
      rcases (within_iff e sub).mp hsub with rfl | ⟨part, hpart, hsub⟩
      · exact Or.inl huse
      · exact Or.inr ⟨part, hpart, (ih part hpart).mpr ⟨sub, hsub, huse⟩⟩

/-- Compiling succeeds when the text is an expression and all names in it are accepted,
wherever they stand, and the result is the expression with the namespaces of its prefixed
tests filled in and nothing else changed. Compiling an expression fails with the first
name that is not accepted. -/
theorem Compiled.ofSource_exact (resolver : Resolver) (source : String) :
    (∀ compiled, ofSource resolver source = .ok compiled ↔
      ∃ e, Expr.parse source = .ok e ∧
        (∀ sub : Expr, sub.Within e → ∀ use ∈ sub.ownUses, use.Accepted resolver) ∧
        compiled = ⟨source, e.mapTests (NodeTest.resolve resolver)⟩) ∧
    ∀ error, ofSource resolver source = .error error ↔
      Expr.parse source = .error error ∨
        ∃ e, Expr.parse source = .ok e ∧ ∃ before use after, e.uses = before ++ use :: after ∧
          (∀ u ∈ before, u.Accepted resolver) ∧ ¬use.Accepted resolver ∧ error = use.error := by
  have hparsed : ∀ e, Expr.parse source = .ok e → ofSource resolver source =
      (checkUses resolver e.uses >>= fun _ =>
        .ok ⟨source, e.mapTests (NodeTest.resolve resolver)⟩) := by
    intro e he
    rw [ofSource, he]
    change (e.bind resolver Registry.core >>= fun bound => .ok (Compiled.mk source bound)) = _
    rw [e.bind_eq resolver, bind_assoc]
    rfl
  have hall : ∀ e : Expr, checkUses resolver e.uses = .ok () ↔
      ∀ sub : Expr, sub.Within e → ∀ use ∈ sub.ownUses, use.Accepted resolver := by
    intro e
    simp only [checkUses_eq_ok_iff, e.mem_uses_iff]
    exact ⟨fun h sub hsub use huse => h use ⟨sub, hsub, huse⟩,
      fun h use hused => hused.elim fun sub hsub => h sub hsub.1 use hsub.2⟩
  cases hparse : Expr.parse source with
  | error failure =>
    have hfails : ofSource resolver source = .error failure := by
      rw [ofSource, hparse]
      rfl
    simp [hfails]
  | ok e =>
    simp only [hparsed e hparse, Except.ok.injEq, exists_eq_left', ← hall, reduceCtorEq, false_or,
      ← checkUses_eq_error_iff]
    cases checkUses resolver e.uses with
    | ok u => simp [bind, Except.bind, eq_comm]
    | error failure => simp [bind, Except.bind]

end XPathQuery
