import XPathQuery.Expr.Bind
import XPathQuery.Proofs.EvaluationSteps
import XPathQuery.Proofs.Subexpressions
import Mathlib.Data.List.Forall2

/-!
Binding, part by part. A bound expression has the shape of the expression it is made
from, and each of its parts is the bound form of a part. Every call in it has been
accepted by the registry.
-/
namespace XPathQuery

section Bind
variable (resolver : Resolver) (registry : Registry)

theorem bindAll_eq_ok (es bound : List Expr) (h : bindAll resolver registry es = .ok bound) :
    List.Forall₂ (fun e e' => e.bind resolver registry = .ok e') es bound := by
  induction es generalizing bound with
  | nil =>
    obtain rfl := Except.ok.inj (by simpa only [bindAll] using h)
    exact List.Forall₂.nil
  | cons e rest ih =>
    simp only [bindAll, bind_eq_ok, pure, Except.pure, Except.ok.injEq] at h
    obtain ⟨e', he, rest', hrest, rfl⟩ := h
    exact List.Forall₂.cons he (ih rest' hrest)

inductive Step.BindsTo : Step → Step → Prop
  | step {axis : Axis} {test test' : NodeTest} {predicates predicates' : List Expr}
      (htest : test.bind resolver = .ok test')
      (hpredicates : bindAll resolver registry predicates = .ok predicates') :
      BindsTo (.step axis test predicates) (.step axis test' predicates')

theorem bindSteps_eq_ok (steps bound : List Step)
    (h : bindSteps resolver registry steps = .ok bound) :
    List.Forall₂ (Step.BindsTo resolver registry) steps bound := by
  induction steps generalizing bound with
  | nil =>
    obtain rfl := Except.ok.inj (by simpa only [bindSteps] using h)
    exact List.Forall₂.nil
  | cons step rest ih =>
    cases step with
    | step axis test predicates =>
      simp only [bindSteps, bind_eq_ok, pure, Except.pure, Except.ok.injEq] at h
      obtain ⟨test', htest, predicates', hpredicates, rest', hrest, rfl⟩ := h
      exact List.Forall₂.cons (Step.BindsTo.step htest hpredicates) (ih rest' hrest)

private theorem exists_of_forall₂_of_mem {α β : Type} {R : α → β → Prop} {l : List α}
    {l' : List β} (h : List.Forall₂ R l l') (b : β) (hb : b ∈ l') : ∃ a ∈ l, R a b := by
  induction h with
  | nil => cases hb
  | cons hab _ ih =>
    rcases List.mem_cons.mp hb with rfl | hb
    · exact ⟨_, List.mem_cons_self, hab⟩
    · obtain ⟨a, ha, hr⟩ := ih hb
      exact ⟨a, List.mem_cons_of_mem _ ha, hr⟩

theorem PathStart.exists_part_of_bind (start bound : PathStart)
    (h : start.bind resolver registry = .ok bound) (part' : Expr) (hpart : part' ∈ bound.parts) :
    ∃ part ∈ start.parts, part.bind resolver registry = .ok part' := by
  cases start with
  | root =>
    obtain rfl := Except.ok.inj (by simpa only [PathStart.bind] using h)
    cases hpart
  | context =>
    obtain rfl := Except.ok.inj (by simpa only [PathStart.bind] using h)
    cases hpart
  | expr e =>
    simp only [PathStart.bind, bind_eq_ok, pure, Except.pure, Except.ok.injEq] at h
    obtain ⟨e', he, rfl⟩ := h
    obtain rfl := List.mem_singleton.mp hpart
    exact ⟨e, List.mem_singleton_self e, he⟩

/-- Every part of a bound expression is the bound form of a part. -/
theorem Expr.exists_part_of_bind (e bound : Expr) (h : e.bind resolver registry = .ok bound)
    (part' : Expr) (hpart : part' ∈ bound.parts) :
    ∃ part ∈ e.parts, part.bind resolver registry = .ok part' := by
  cases e with
  | literal text =>
    obtain rfl := Except.ok.inj (by simpa only [Expr.bind] using h)
    cases hpart
  | number value =>
    obtain rfl := Except.ok.inj (by simpa only [Expr.bind] using h)
    cases hpart
  | path start steps =>
    simp only [Expr.bind, bind_eq_ok, pure, Except.pure, Except.ok.injEq] at h
    obtain ⟨start', hstart, steps', hsteps, rfl⟩ := h
    rcases List.mem_append.mp hpart with hpart | hpart
    · obtain ⟨part, hmem, hbind⟩ :=
        start.exists_part_of_bind resolver registry start' hstart part' hpart
      exact ⟨part, List.mem_append_left _ hmem, hbind⟩
    · obtain ⟨step', hstep', hpart⟩ := List.mem_flatMap.mp hpart
      obtain ⟨step, hstep, hbinds⟩ := exists_of_forall₂_of_mem
        (bindSteps_eq_ok resolver registry steps steps' hsteps) step' hstep'
      obtain ⟨_, hpredicates⟩ := hbinds
      obtain ⟨part, hmem, hbind⟩ := exists_of_forall₂_of_mem
        (bindAll_eq_ok resolver registry _ _ hpredicates) part' hpart
      exact ⟨part, List.mem_append_right _ (List.mem_flatMap.mpr ⟨_, hstep, hmem⟩), hbind⟩
  | filter base predicates =>
    simp only [Expr.bind, bind_eq_ok, pure, Except.pure, Except.ok.injEq] at h
    obtain ⟨base', hbase, predicates', hpredicates, rfl⟩ := h
    rcases List.mem_cons.mp hpart with rfl | hpart
    · exact ⟨base, List.mem_cons_self, hbase⟩
    · obtain ⟨part, hmem, hbind⟩ := exists_of_forall₂_of_mem
        (bindAll_eq_ok resolver registry _ _ hpredicates) part' hpart
      exact ⟨part, List.mem_cons_of_mem base hmem, hbind⟩
  | call function arguments =>
    simp only [Expr.bind, bind_eq_ok, pure, Except.pure, Except.ok.injEq] at h
    obtain ⟨_, _, arguments', harguments, rfl⟩ := h
    exact exists_of_forall₂_of_mem (bindAll_eq_ok resolver registry _ _ harguments) part' hpart
  | binary operator left right =>
    simp only [Expr.bind, bind_eq_ok, pure, Except.pure, Except.ok.injEq] at h
    obtain ⟨left', hleft, right', hright, rfl⟩ := h
    simp only [Expr.parts, List.mem_cons, List.not_mem_nil, or_false] at hpart
    rcases hpart with rfl | rfl
    · exact ⟨left, by simp [Expr.parts], hleft⟩
    · exact ⟨right, by simp [Expr.parts], hright⟩
  | negate operand =>
    simp only [Expr.bind, bind_eq_ok, pure, Except.pure, Except.ok.injEq] at h
    obtain ⟨operand', hoperand, rfl⟩ := h
    obtain rfl := List.mem_singleton.mp hpart
    exact ⟨operand, List.mem_singleton_self operand, hoperand⟩

def Expr.CallAccepted : Expr → Prop
  | .call function arguments => registry.validate function arguments.length = .ok ()
  | _ => True

theorem Expr.callAccepted_of_bind (e bound : Expr) (h : e.bind resolver registry = .ok bound) :
    bound.CallAccepted registry := by
  cases bound with
  | call function arguments =>
    cases e with
    | call function' arguments' =>
      simp only [Expr.bind, bind_eq_ok, pure, Except.pure, Except.ok.injEq] at h
      obtain ⟨⟨⟩, hvalid, bound', hbound, hcall⟩ := h
      obtain ⟨rfl, rfl⟩ := Expr.call.inj hcall
      have hlength := (bindAll_eq_ok resolver registry _ _ hbound).length_eq
      rw [Expr.CallAccepted, ← hlength]
      exact hvalid
    | literal text => simp [Expr.bind] at h
    | number value => simp [Expr.bind] at h
    | path start steps => simp [Expr.bind, bind_eq_ok, pure, Except.pure] at h
    | filter base predicates => simp [Expr.bind, bind_eq_ok, pure, Except.pure] at h
    | binary operator left right => simp [Expr.bind, bind_eq_ok, pure, Except.pure] at h
    | negate operand => simp [Expr.bind, bind_eq_ok, pure, Except.pure] at h
  | _ => trivial

/-- The registry has accepted every call in a bound expression. -/
theorem Expr.everywhere_callAccepted_of_bind (e bound : Expr)
    (h : e.bind resolver registry = .ok bound) : bound.Everywhere (Expr.CallAccepted registry) := by
  induction e using Expr.induct generalizing bound with
  | step e ih =>
    rw [Expr.everywhere_iff]
    refine ⟨e.callAccepted_of_bind resolver registry bound h, fun part' hpart => ?_⟩
    obtain ⟨part, hmem, hbind⟩ := e.exists_part_of_bind resolver registry bound h part' hpart
    exact ih part hmem part' hbind

end Bind

end XPathQuery
