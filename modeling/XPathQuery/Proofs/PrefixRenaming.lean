import XPathQuery.Expr.Equality
import XPathQuery.Proofs.NameResolution

/-!
Prefixes only stand for namespaces. Evaluation looks at no prefix, so an expression keeps
its value when its prefixes are renamed after it has been bound. Binding the renamed
expression gives the same, or fails in the same place, when the new prefixes stand for
the namespaces of the old ones.
-/
namespace XPathQuery

inductive ErrorKind
  | parse
  | unboundPrefix
  | unknownFunction
  | function
  | type
deriving DecidableEq

def XPathError.kind : XPathError → ErrorKind
  | parse .. => .parse
  | unboundPrefix .. => .unboundPrefix
  | unknownFunction .. => .unknownFunction
  | wrongArity .. | missingArgument .. => .function
  | type .. => .type

section Rename
variable (f : String → String)

def NodeTest.renamePrefix : NodeTest → NodeTest
  | .name (some nsPrefix) localPart uri => .name (some (f nsPrefix)) localPart uri
  | .namespaceWildcard nsPrefix uri => .namespaceWildcard (f nsPrefix) uri
  | test => test

def Expr.renamePrefixes (e : Expr) : Expr := e.mapTests (NodeTest.renamePrefix f)

def NameUse.rename : NameUse → NameUse
  | nsPrefix p => .nsPrefix (f p)
  | call function count => .call function count

theorem NodeTest.uses_renamePrefix (test : NodeTest) :
    (test.renamePrefix f).uses = test.uses.map (NameUse.rename f) := by
  cases test with
  | name nsPrefix localPart uri => cases nsPrefix <;> rfl
  | _ => rfl

theorem length_mapTestsOfAll (g : NodeTest → NodeTest) (es : List Expr) :
    (mapTestsOfAll g es).length = es.length := by
  induction es with
  | nil => rfl
  | cons e rest ih => simp [mapTestsOfAll, ih]

mutual

theorem Expr.uses_renamePrefixes (e : Expr) :
    (e.mapTests (NodeTest.renamePrefix f)).uses = e.uses.map (NameUse.rename f) := by
  cases e with
  | literal text => rfl
  | number value => rfl
  | path start steps =>
    simp only [Expr.mapTests, Expr.uses, List.map_append, PathStart.uses_renamePrefixes start,
      usesOfSteps_renamePrefixes steps]
  | filter base predicates =>
    simp only [Expr.mapTests, Expr.uses, List.map_append, Expr.uses_renamePrefixes base,
      usesOfAll_renamePrefixes predicates]
  | call function arguments =>
    simp only [Expr.mapTests, Expr.uses, List.map_cons, NameUse.rename, length_mapTestsOfAll,
      usesOfAll_renamePrefixes arguments]
  | binary operator left right =>
    simp only [Expr.mapTests, Expr.uses, List.map_append, Expr.uses_renamePrefixes left,
      Expr.uses_renamePrefixes right]
  | negate operand => simp only [Expr.mapTests, Expr.uses, Expr.uses_renamePrefixes operand]

theorem PathStart.uses_renamePrefixes (start : PathStart) :
    (start.mapTests (NodeTest.renamePrefix f)).uses = start.uses.map (NameUse.rename f) := by
  cases start with
  | root => rfl
  | context => rfl
  | expr e => simp only [PathStart.mapTests, PathStart.uses, Expr.uses_renamePrefixes e]

theorem usesOfSteps_renamePrefixes (steps : List Step) :
    usesOfSteps (mapTestsOfSteps (NodeTest.renamePrefix f) steps) =
      (usesOfSteps steps).map (NameUse.rename f) := by
  cases steps with
  | nil => rfl
  | cons step rest =>
    cases step with
    | step axis test predicates =>
      simp only [mapTestsOfSteps, usesOfSteps, List.map_append, test.uses_renamePrefix f,
        usesOfAll_renamePrefixes predicates, usesOfSteps_renamePrefixes rest]

theorem usesOfAll_renamePrefixes (es : List Expr) :
    usesOfAll (mapTestsOfAll (NodeTest.renamePrefix f) es) =
      (usesOfAll es).map (NameUse.rename f) := by
  cases es with
  | nil => rfl
  | cons e rest =>
    simp only [mapTestsOfAll, usesOfAll, List.map_append, Expr.uses_renamePrefixes e,
      usesOfAll_renamePrefixes rest]

end

/-- A test looks at the namespace of its prefix, never at the prefix. -/
theorem NodeTest.passes_renamePrefix (test : NodeTest) (axis : Axis) (label : Label) :
    (test.renamePrefix f).passes axis label = test.passes axis label := by
  cases test with
  | name nsPrefix localPart uri => cases nsPrefix <;> rfl
  | _ => rfl

section Evaluate
variable (tree : Tree)

theorem Tree.stepNodes_renamePrefix (axis : Axis) (test : NodeTest) (node : Address) :
    tree.stepNodes axis (test.renamePrefix f) node = tree.stepNodes axis test node := by
  have hpasses : (test.renamePrefix f).passes axis = test.passes axis :=
    funext fun label => test.passes_renamePrefix f axis label
  rw [Tree.stepNodes, Tree.stepNodes, hpasses]

mutual

/-- An expression has the same value, or the same error, with other prefixes. -/
theorem evaluate_renamePrefixes (e : Expr) (context : Context) :
    evaluate tree (e.mapTests (NodeTest.renamePrefix f)) context = evaluate tree e context := by
  cases e with
  | literal text => rfl
  | number value => rfl
  | path start steps =>
    have hwalk := funext fun nodes => walk_renamePrefixes steps context.root nodes
    simp only [Expr.mapTests, evaluate, startNodes_renamePrefixes start context, hwalk]
  | filter base predicates =>
    have hnarrow := funext fun nodes => narrow_renamePrefixes predicates context.root nodes
    simp only [Expr.mapTests, evaluate, evaluate_renamePrefixes base context, hnarrow]
  | call function arguments =>
    simp only [Expr.mapTests, evaluate, evaluateAll_renamePrefixes arguments context]
  | binary operator left right =>
    simp only [Expr.mapTests, evaluate, evaluate_renamePrefixes left context,
      evaluate_renamePrefixes right context]
  | negate operand =>
    simp only [Expr.mapTests, evaluate, evaluate_renamePrefixes operand context]

theorem evaluateAll_renamePrefixes (es : List Expr) (context : Context) :
    evaluateAll tree (mapTestsOfAll (NodeTest.renamePrefix f) es) context =
      evaluateAll tree es context := by
  cases es with
  | nil => rfl
  | cons e rest =>
    simp only [mapTestsOfAll, evaluateAll, evaluate_renamePrefixes e context,
      evaluateAll_renamePrefixes rest context]

theorem startNodes_renamePrefixes (start : PathStart) (context : Context) :
    startNodes tree (start.mapTests (NodeTest.renamePrefix f)) context =
      startNodes tree start context := by
  cases start with
  | root => rfl
  | context => rfl
  | expr e => simp only [PathStart.mapTests, startNodes, evaluate_renamePrefixes e context]

theorem walk_renamePrefixes (steps : List Step) (root : Address) (nodes : List Address) :
    walk tree (mapTestsOfSteps (NodeTest.renamePrefix f) steps) root nodes =
      walk tree steps root nodes := by
  cases steps with
  | nil => rfl
  | cons step rest =>
    cases step with
    | step axis test predicates =>
      have hnarrow := funext fun nodes => narrow_renamePrefixes predicates root nodes
      have hrest := funext fun nodes => walk_renamePrefixes rest root nodes
      simp only [mapTestsOfSteps, walk, Tree.stepNodes_renamePrefix, hnarrow, hrest]

theorem narrow_renamePrefixes (predicates : List Expr) (root : Address) (nodes : List Address) :
    narrow tree (mapTestsOfAll (NodeTest.renamePrefix f) predicates) root nodes =
      narrow tree predicates root nodes := by
  cases predicates with
  | nil => rfl
  | cons predicate rest =>
    have hpredicate := funext fun context => evaluate_renamePrefixes predicate context
    have hrest := funext fun nodes => narrow_renamePrefixes rest root nodes
    simp only [mapTestsOfAll, narrow, hpredicate, hrest]

end

end Evaluate

end Rename

/-- The new prefixes stand for the namespaces of the old ones. -/
def SameNamespaces (f : String → String) (resolver resolver' : Resolver)
    (uses : List NameUse) : Prop :=
  ∀ p, NameUse.nsPrefix p ∈ uses → resolver' (f p) = resolver p

section Resolve
variable {f : String → String} {resolver resolver' : Resolver}

theorem sameNamespaces_append (uses more : List NameUse) :
    SameNamespaces f resolver resolver' (uses ++ more) ↔
      SameNamespaces f resolver resolver' uses ∧ SameNamespaces f resolver resolver' more := by
  simp only [SameNamespaces, List.mem_append, or_imp, forall_and]

theorem sameNamespaces_cons (use : NameUse) (rest : List NameUse) :
    SameNamespaces f resolver resolver' (use :: rest) ↔
      SameNamespaces f resolver resolver' [use] ∧ SameNamespaces f resolver resolver' rest :=
  sameNamespaces_append [use] rest

theorem NodeTest.resolve_renamePrefix (test : NodeTest)
    (h : SameNamespaces f resolver resolver' test.uses) :
    (test.renamePrefix f).resolve resolver' = (test.resolve resolver).renamePrefix f := by
  cases test with
  | name nsPrefix localPart uri =>
    cases nsPrefix with
    | none => rfl
    | some p => simp [renamePrefix, resolve, h p (List.mem_singleton_self _)]
  | namespaceWildcard p uri => simp [renamePrefix, resolve, h p (List.mem_singleton_self _)]
  | _ => rfl

mutual

/-- Namespaces are filled in as before, and the prefixes are the new ones. -/
theorem Expr.resolve_renamePrefixes (e : Expr) (h : SameNamespaces f resolver resolver' e.uses) :
    (e.mapTests (NodeTest.renamePrefix f)).mapTests (NodeTest.resolve resolver') =
      (e.mapTests (NodeTest.resolve resolver)).mapTests (NodeTest.renamePrefix f) := by
  cases e with
  | literal text => rfl
  | number value => rfl
  | path start steps =>
    obtain ⟨hstart, hsteps⟩ := (sameNamespaces_append _ _).mp h
    simp only [Expr.mapTests, PathStart.resolve_renamePrefixes start hstart,
      resolveSteps_renamePrefixes steps hsteps]
  | filter base predicates =>
    obtain ⟨hbase, hpredicates⟩ := (sameNamespaces_append _ _).mp h
    simp only [Expr.mapTests, Expr.resolve_renamePrefixes base hbase,
      resolveAll_renamePrefixes predicates hpredicates]
  | call function arguments =>
    have harguments := ((sameNamespaces_cons _ _).mp h).2
    simp only [Expr.mapTests, resolveAll_renamePrefixes arguments harguments]
  | binary operator left right =>
    obtain ⟨hleft, hright⟩ := (sameNamespaces_append _ _).mp h
    simp only [Expr.mapTests, Expr.resolve_renamePrefixes left hleft,
      Expr.resolve_renamePrefixes right hright]
  | negate operand => simp only [Expr.mapTests, Expr.resolve_renamePrefixes operand h]

theorem PathStart.resolve_renamePrefixes (start : PathStart)
    (h : SameNamespaces f resolver resolver' start.uses) :
    (start.mapTests (NodeTest.renamePrefix f)).mapTests (NodeTest.resolve resolver') =
      (start.mapTests (NodeTest.resolve resolver)).mapTests (NodeTest.renamePrefix f) := by
  cases start with
  | root => rfl
  | context => rfl
  | expr e => simp only [PathStart.mapTests, Expr.resolve_renamePrefixes e h]

theorem resolveSteps_renamePrefixes (steps : List Step)
    (h : SameNamespaces f resolver resolver' (usesOfSteps steps)) :
    mapTestsOfSteps (NodeTest.resolve resolver')
        (mapTestsOfSteps (NodeTest.renamePrefix f) steps) =
      mapTestsOfSteps (NodeTest.renamePrefix f)
        (mapTestsOfSteps (NodeTest.resolve resolver) steps) := by
  cases steps with
  | nil => rfl
  | cons step rest =>
    cases step with
    | step axis test predicates =>
      obtain ⟨htest, hmore⟩ := (sameNamespaces_append _ _).mp h
      obtain ⟨hpredicates, hrest⟩ := (sameNamespaces_append _ _).mp hmore
      simp only [mapTestsOfSteps, test.resolve_renamePrefix htest,
        resolveAll_renamePrefixes predicates hpredicates, resolveSteps_renamePrefixes rest hrest]

theorem resolveAll_renamePrefixes (es : List Expr)
    (h : SameNamespaces f resolver resolver' (usesOfAll es)) :
    mapTestsOfAll (NodeTest.resolve resolver') (mapTestsOfAll (NodeTest.renamePrefix f) es) =
      mapTestsOfAll (NodeTest.renamePrefix f) (mapTestsOfAll (NodeTest.resolve resolver) es) := by
  cases es with
  | nil => rfl
  | cons e rest =>
    obtain ⟨he, hrest⟩ := (sameNamespaces_append _ _).mp h
    simp only [mapTestsOfAll, Expr.resolve_renamePrefixes e he,
      resolveAll_renamePrefixes rest hrest]

end

namespace NameUse

theorem accepted_rename_iff (use : NameUse) (h : SameNamespaces f resolver resolver' [use]) :
    (use.rename f).Accepted resolver' ↔ use.Accepted resolver := by
  cases use with
  | nsPrefix p => simp only [rename, Accepted, h p (List.mem_singleton_self _)]
  | call function count => rfl

theorem kind_error_rename (use : NameUse) : (use.rename f).error.kind = use.error.kind := by
  cases use <;> rfl

end NameUse

/-- The names of an expression pass the check under both spellings, or the first that does
not is the same. -/
theorem checkUses_rename (uses : List NameUse) (h : SameNamespaces f resolver resolver' uses) :
    checkUses resolver uses = .ok () ∧
        checkUses resolver' (uses.map (NameUse.rename f)) = .ok () ∨
      ∃ use : NameUse, checkUses resolver uses = .error use.error ∧
        checkUses resolver' (uses.map (NameUse.rename f)) = .error (use.rename f).error := by
  induction uses with
  | nil => exact Or.inl ⟨rfl, rfl⟩
  | cons use rest ih =>
    obtain ⟨huse, hrest⟩ := (sameNamespaces_cons use rest).mp h
    have hiff := use.accepted_rename_iff huse
    by_cases haccepted : use.Accepted resolver
    · have hcheck := use.check_of_accepted resolver haccepted
      have hcheck' := (use.rename f).check_of_accepted resolver' (hiff.mpr haccepted)
      have hstep : checkUses resolver (use :: rest) = checkUses resolver rest := by
        rw [checkUses, hcheck]
        rfl
      have hstep' : checkUses resolver' (use.rename f :: rest.map (NameUse.rename f)) =
          checkUses resolver' (rest.map (NameUse.rename f)) := by
        rw [checkUses, hcheck']
        rfl
      rw [List.map_cons, hstep, hstep']
      exact ih hrest
    · right
      have hcheck := use.check_of_not_accepted resolver haccepted
      have hcheck' := (use.rename f).check_of_not_accepted resolver' (hiff.not.mpr haccepted)
      exact ⟨use, by simp [checkUses, hcheck, bind, Except.bind],
        by simp [checkUses, hcheck', bind, Except.bind]⟩

/-- Two texts that differ in their prefixes alone are both compiled or both refused with
the same kind of error, if the prefixes of the one stand for the namespaces of the prefixes
of the other, and when they are compiled they have the same results everywhere. -/
theorem Compiled.ofSource_renamePrefixes {source source' : String} {e : Expr}
    (hparse : Expr.parse source = .ok e)
    (hparse' : Expr.parse source' = .ok (e.renamePrefixes f))
    (hsame : SameNamespaces f resolver resolver' e.uses) :
    (∃ compiled compiled', ofSource resolver source = .ok compiled ∧
        ofSource resolver' source' = .ok compiled' ∧ ∀ tree context,
          XPathQuery.evaluate tree compiled'.expr context =
            XPathQuery.evaluate tree compiled.expr context) ∨
      ∃ error error', ofSource resolver source = .error error ∧
        ofSource resolver' source' = .error error' ∧ error'.kind = error.kind := by
  have hsource : ofSource resolver source =
      (e.bind resolver Registry.core >>= fun bound => .ok ⟨source, bound⟩) := by
    rw [ofSource, hparse]
    rfl
  have hsource' : ofSource resolver' source' =
      ((e.renamePrefixes f).bind resolver' Registry.core >>= fun bound =>
        .ok ⟨source', bound⟩) := by
    rw [ofSource, hparse']
    rfl
  have huses : (e.renamePrefixes f).uses = e.uses.map (NameUse.rename f) :=
    e.uses_renamePrefixes f
  rw [Expr.bind_eq] at hsource hsource'
  rw [huses] at hsource'
  rcases checkUses_rename e.uses hsame with ⟨hcheck, hcheck'⟩ | ⟨use, hcheck, hcheck'⟩
  · left
    rw [hcheck] at hsource
    rw [hcheck'] at hsource'
    refine ⟨_, _, hsource, hsource', fun tree context => ?_⟩
    have hbound := e.resolve_renamePrefixes hsame
    simp only [Expr.renamePrefixes, hbound, evaluate_renamePrefixes]
  · right
    rw [hcheck] at hsource
    rw [hcheck'] at hsource'
    exact ⟨_, _, hsource, hsource', use.kind_error_rename⟩

end Resolve

/-- Prefixes in a step, in a predicate and in an argument of a call: where all of them have a
namespace both texts are compiled, and where the last has none both name it. -/
theorem Compiled.ofSource_renamePrefixes_nested :
    let f := fun p => if p = "k" then "x" else "y"
    let e : Expr := .path .context
      [.step .child (.name (some "k") "a" none)
        [.path .context [.step .child (.namespaceWildcard "k" none) []],
          .call "count" [.path .context [.step .child (.name (some "m") "b" none) []]]]]
    let both : Resolver := fun p => some (if p = "k" then "urn:k" else "urn:m")
    let both' : Resolver := fun p => some (if p = "x" then "urn:k" else "urn:m")
    let one : Resolver := fun p => if p = "k" then some "urn:k" else none
    let one' : Resolver := fun p => if p = "x" then some "urn:k" else none
    Expr.parse "k:a[k:*][count(m:b)]" = .ok e ∧
      Expr.parse "x:a[x:*][count(y:b)]" = .ok (e.renamePrefixes f) ∧
      SameNamespaces f both both' e.uses ∧
      (∃ compiled compiled', ofSource both "k:a[k:*][count(m:b)]" = .ok compiled ∧
        ofSource both' "x:a[x:*][count(y:b)]" = .ok compiled' ∧ ∀ tree context,
          XPathQuery.evaluate tree compiled'.expr context =
            XPathQuery.evaluate tree compiled.expr context) ∧
      SameNamespaces f one one' e.uses ∧
      ofSource one "k:a[k:*][count(m:b)]" = .error (.unboundPrefix "m") ∧
      ofSource one' "x:a[x:*][count(y:b)]" = .error (.unboundPrefix "y") ∧
      (XPathError.unboundPrefix "y").kind = (XPathError.unboundPrefix "m").kind := by
  intro f e both both' one one'
  have hparse : Expr.parse "k:a[k:*][count(m:b)]" = .ok e := by decide +kernel
  have hparse' : Expr.parse "x:a[x:*][count(y:b)]" = .ok (e.renamePrefixes f) := by
    decide +kernel
  have hprefix (p : String) (hp : .nsPrefix p ∈ e.uses) : p = "k" ∨ p = "m" := by
    simpa [e, Expr.uses, PathStart.uses, usesOfSteps, usesOfAll, NodeTest.uses] using hp
  have hboth : SameNamespaces f both both' e.uses := by
    intro p hp
    rcases hprefix p hp with rfl | rfl <;> rfl
  have hone : SameNamespaces f one one' e.uses := by
    intro p hp
    rcases hprefix p hp with rfl | rfl <;> rfl
  refine ⟨hparse, hparse', hboth, ?_, hone, ?_⟩
  · rcases ofSource_renamePrefixes hparse hparse' hboth with hcompiled | ⟨error, _, herror, -⟩
    · exact hcompiled
    · have hok : (ofSource both "k:a[k:*][count(m:b)]").isOk = true := by decide +kernel
      rw [herror] at hok
      cases hok
  · have hbind : e.bind one Registry.core = .error (.unboundPrefix "m") := by decide +kernel
    have hbind' : (e.renamePrefixes f).bind one' Registry.core = .error (.unboundPrefix "y") := by
      decide +kernel
    have hm : ofSource one "k:a[k:*][count(m:b)]" = .error (.unboundPrefix "m") := by
      simp only [ofSource, hparse, bind, Except.bind, hbind]
    have hy : ofSource one' "x:a[x:*][count(y:b)]" = .error (.unboundPrefix "y") := by
      simp only [ofSource, hparse', bind, Except.bind, hbind']
    rcases ofSource_renamePrefixes hparse hparse' hone with
      ⟨compiled, _, hcompiled, -⟩ | ⟨error, error', herror, herror', hkind⟩
    · cases hm.symm.trans hcompiled
    · obtain rfl := Except.error.inj (hm.symm.trans herror)
      obtain rfl := Except.error.inj (hy.symm.trans herror')
      exact ⟨hm, hy, hkind⟩

end XPathQuery
