import XPathQuery.Proofs.EvaluationSteps

/-!
Computations compared by their results. One computation refines another when it has every
result of the other, and two have the same result when each refines the other: then they
both fail or neither does, but their errors may differ. What is computed in steps may be
compared step by step, so lists that are gathered or narrowed may be compared node by node.
-/
namespace XPathQuery

section Except
variable {ε α β : Type}

def Refines (first second : Except ε α) : Prop := ∀ a, first = .ok a → second = .ok a

/-- Both computations have one result, or both fail, maybe with different errors. -/
def SameResult (first second : Except ε α) : Prop := ∀ a, first = .ok a ↔ second = .ok a

theorem toOption_eq_some_iff (found : Except ε α) (a : α) :
    found.toOption = some a ↔ found = .ok a := by
  cases found <;> simp [Except.toOption]

theorem Refines.refl (first : Except ε α) : Refines first first := fun _ h => h

theorem SameResult.refl (first : Except ε α) : SameResult first first := fun _ => Iff.rfl

theorem sameResult_iff_refines (first second : Except ε α) :
    SameResult first second ↔ Refines first second ∧ Refines second first :=
  ⟨fun h => ⟨fun a => (h a).mp, fun a => (h a).mpr⟩, fun h a => ⟨h.1 a, h.2 a⟩⟩

/-- What follows a result need only be compared after that result. -/
theorem Refines.bind {first second : Except ε α} {next next' : α → Except ε β}
    (h : Refines first second) (hnext : ∀ a, first = .ok a → Refines (next a) (next' a)) :
    Refines (first >>= next) (second >>= next') := by
  intro b hb
  obtain ⟨a, ha, hb⟩ := bind_eq_ok.mp hb
  exact bind_eq_ok.mpr ⟨a, h a ha, hnext a ha b hb⟩

theorem SameResult.bind {first second : Except ε α} {next next' : α → Except ε β}
    (h : SameResult first second) (hnext : ∀ a, first = .ok a → SameResult (next a) (next' a)) :
    SameResult (first >>= next) (second >>= next') := by
  rw [sameResult_iff_refines] at h ⊢
  refine ⟨h.1.bind fun a ha => ?_, h.2.bind fun a ha => ?_⟩
  · exact ((sameResult_iff_refines _ _).mp (hnext a ha)).1
  · exact ((sameResult_iff_refines _ _).mp (hnext a (h.2 a ha))).2

end Except

/-- Following every node of a list refines, when following each of them does. -/
theorem gather_refines {follow follow' : Address → Except XPathError (List Address)}
    (nodes : List Address) (h : ∀ n ∈ nodes, Refines (follow n) (follow' n)) :
    Refines (gather follow nodes) (gather follow' nodes) := by
  induction nodes with
  | nil => exact Refines.refl _
  | cons node rest ih =>
    obtain ⟨hnode, hrest⟩ := List.forall_mem_cons.mp h
    rw [gather, gather]
    exact hnode.bind fun first _ => (ih hrest).bind fun _ _ => Refines.refl _

/-- A predicate keeps the same nodes when it has the same values. -/
theorem keepNodes_refines {predicate predicate' : Context → Except XPathError Value}
    (h : ∀ context, Refines (predicate context) (predicate' context)) (root : Address)
    (size position : Nat) (nodes : List Address) :
    Refines (keepNodes predicate root size position nodes)
      (keepNodes predicate' root size position nodes) := by
  induction nodes generalizing position with
  | nil => exact Refines.refl _
  | cons node rest ih =>
    rw [keepNodes, keepNodes]
    exact (h _).bind fun value _ => (ih (position + 1)).bind fun _ _ => Refines.refl _

end XPathQuery
