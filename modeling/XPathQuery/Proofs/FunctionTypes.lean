import XPathQuery.Function.Apply
import XPathQuery.Proofs.EvaluationSteps

/-!
The types of the core functions. Every function has one type of result, which is never
a node-set. With a number of arguments that it accepts, and node-sets where it asks
for them, a function has a result. The names that calls are dispatched on are the names
in the core registry, and the arity registered under a name is the one its function is
written for.
-/
namespace XPathQuery

theorem Value.eq_nodes_of_type (value : Value) (h : value.type = .nodeSet) :
    ∃ nodes, value = .nodes nodes := by
  cases value with
  | nodes addresses => exact ⟨addresses, rfl⟩
  | scalar s => cases s <;> cases h

namespace CoreFunction

def arity : CoreFunction → Arity
  | last | position | truth | falsehood => ⟨0, some 0⟩
  | localName | namespaceUri | name | string | stringLength | normalizeSpace | number =>
      ⟨0, some 1⟩
  | count | boolean | negation | lang | sum | floor | ceiling | round => ⟨1, some 1⟩
  | startsWith | contains | substringBefore | substringAfter => ⟨2, some 2⟩
  | substring => ⟨2, some 3⟩
  | translate => ⟨3, some 3⟩
  | concat => ⟨2, none⟩

def resultType : CoreFunction → ValueType
  | last | position | count | stringLength | number | sum | floor | ceiling | round => .number
  | localName | namespaceUri | name | string | concat | substringBefore | substringAfter
  | substring | normalizeSpace | translate => .string
  | startsWith | contains | boolean | negation | truth | falsehood | lang => .boolean

def takesNodes : CoreFunction → Bool
  | count | localName | namespaceUri | name | sum => true
  | _ => false

/-- A call is dispatched by the name that errors of the function give. -/
theorem ofName?_eq_some_iff (name : String) (f : CoreFunction) :
    ofName? name = some f ↔ name = f.spelling := by
  constructor
  · intro h
    unfold ofName? at h
    split at h <;> cases h <;> rfl
  · rintro rfl
    cases f <;> rfl

theorem resultType_ne_nodeSet (f : CoreFunction) : f.resultType ≠ .nodeSet := by
  cases f <;> decide

def YieldsType (type : ValueType) (result : Except XPathError Value) : Prop :=
  ∀ value, result = .ok value → value.type = type

theorem YieldsType.ok {type : ValueType} {value : Value} (h : value.type = type) :
    YieldsType type (.ok value) := by
  intro _ h
  cases h
  exact h

theorem YieldsType.bind {α : Type} {type : ValueType} {first : Except XPathError α}
    {next : α → Except XPathError Value} (h : ∀ a, YieldsType type (next a)) :
    YieldsType type (first >>= next) := by
  intro value hvalue
  obtain ⟨a, _, ha⟩ := bind_eq_ok.mp hvalue
  exact h a value ha

section Apply
variable (tree : Tree) (context : Context) (f : CoreFunction) (arguments : List Value)

theorem apply_type : YieldsType f.resultType (f.apply tree context arguments) := by
  cases f
  case substring =>
    refine YieldsType.bind fun _ => YieldsType.bind fun _ => ?_
    split
    · exact YieldsType.bind fun _ => YieldsType.bind fun _ => YieldsType.ok rfl
    · exact YieldsType.bind fun _ => YieldsType.ok rfl
  case last | position | string | concat | stringLength | normalizeSpace | truth | falsehood |
      number =>
    exact YieldsType.ok rfl
  case localName | namespaceUri | name | boolean | negation | lang | floor | ceiling | round =>
    exact YieldsType.bind fun _ => YieldsType.ok rfl
  case count | sum | startsWith | contains | substringBefore | substringAfter =>
    exact YieldsType.bind fun _ => YieldsType.bind fun _ => YieldsType.ok rfl
  case translate =>
    exact YieldsType.bind fun _ => YieldsType.bind fun _ => YieldsType.bind fun _ =>
      YieldsType.ok rfl

theorem succeeds_bind {α β : Type} {first : Except XPathError α} {next : α → Except XPathError β}
    (hfirst : ∃ a, first = .ok a) (hnext : ∀ a, first = .ok a → ∃ b, next a = .ok b) :
    ∃ b, first >>= next = .ok b := by
  obtain ⟨a, ha⟩ := hfirst
  obtain ⟨b, hb⟩ := hnext a ha
  exact ⟨b, bind_eq_ok.mpr ⟨a, ha, hb⟩⟩

theorem argument_succeeds (index : Nat) (h : index < arguments.length) :
    ∃ value, f.argument arguments index = .ok value := by
  unfold argument
  rw [List.getElem?_eq_getElem h]
  exact ⟨_, rfl⟩

theorem mem_of_argument (index : Nat) (value : Value)
    (h : f.argument arguments index = .ok value) : value ∈ arguments := by
  unfold argument at h
  split at h
  · rename_i found hfound
    obtain rfl := Except.ok.inj h
    exact List.mem_of_getElem? hfound
  · cases h

theorem map_argument_succeeds {α : Type} (convert : Value → α) (index : Nat)
    (h : index < arguments.length) :
    ∃ a, (f.argument arguments index).map convert = .ok a := by
  obtain ⟨value, hvalue⟩ := argument_succeeds f arguments index h
  exact ⟨convert value, by rw [hvalue]; rfl⟩

theorem nodeSet_succeeds (value : Value) (h : value.type = .nodeSet) :
    ∃ nodes, f.nodeSet value = .ok nodes := by
  obtain ⟨nodes, rfl⟩ := value.eq_nodes_of_type h
  exact ⟨nodes, rfl⟩

theorem chosenNode_succeeds (h : ∀ value ∈ arguments, value.type = .nodeSet) :
    ∃ node, f.chosenNode context arguments = .ok node := by
  cases arguments with
  | nil => exact ⟨_, rfl⟩
  | cons value rest =>
    obtain ⟨nodes, hnodes⟩ := nodeSet_succeeds f value (h value List.mem_cons_self)
    exact ⟨nodes.head?, by simp only [chosenNode, hnodes]; rfl⟩

theorem least_le_of_accepts (arity : Arity) (count : Nat) (h : arity.accepts count = true) :
    arity.least ≤ count := by
  simp only [Arity.accepts, Bool.and_eq_true, decide_eq_true_eq] at h
  exact h.1

theorem le_most_of_accepts (arity : Arity) (count : Nat) (h : arity.accepts count = true)
    (most : Nat) (hmost : arity.most = some most) : count ≤ most := by
  unfold Arity.accepts at h
  rw [hmost] at h
  exact of_decide_eq_true (Bool.and_eq_true_iff.mp h).2

/-- A function has a result for an accepted number of arguments, node-sets where it asks
for them. -/
theorem apply_succeeds (haccepts : f.arity.accepts arguments.length = true)
    (hnodes : f.takesNodes = true → ∀ value ∈ arguments, value.type = .nodeSet) :
    ∃ value, f.apply tree context arguments = .ok value := by
  have hleast := least_le_of_accepts f.arity arguments.length haccepts
  cases f
  case last | position | string | concat | stringLength | normalizeSpace | truth | falsehood |
      number =>
    exact ⟨_, rfl⟩
  case count | sum =>
    refine succeeds_bind (argument_succeeds _ arguments 0 hleast) fun value hvalue => ?_
    have htype := hnodes rfl value (mem_of_argument _ arguments 0 value hvalue)
    exact succeeds_bind (nodeSet_succeeds _ value htype) fun _ _ => ⟨_, rfl⟩
  case localName | namespaceUri | name =>
    exact succeeds_bind (chosenNode_succeeds context _ arguments (hnodes rfl)) fun _ _ => ⟨_, rfl⟩
  case boolean | negation | lang | floor | ceiling | round =>
    exact succeeds_bind (map_argument_succeeds _ arguments _ 0 hleast) fun _ _ => ⟨_, rfl⟩
  case startsWith | contains | substringBefore | substringAfter =>
    refine succeeds_bind (map_argument_succeeds _ arguments _ 0 (Nat.lt_of_succ_lt hleast))
      fun _ _ => ?_
    exact succeeds_bind (map_argument_succeeds _ arguments _ 1 hleast) fun _ _ => ⟨_, rfl⟩
  case substring =>
    refine succeeds_bind (map_argument_succeeds _ arguments _ 0 (Nat.lt_of_succ_lt hleast))
      fun _ _ => ?_
    refine succeeds_bind (map_argument_succeeds _ arguments _ 1 hleast) fun _ _ => ?_
    split
    · rename_i hlength
      refine succeeds_bind (map_argument_succeeds _ arguments _ 2 (by omega)) fun _ _ => ?_
      exact succeeds_bind ⟨_, rfl⟩ fun _ _ => ⟨_, rfl⟩
    · exact succeeds_bind ⟨_, rfl⟩ fun _ _ => ⟨_, rfl⟩
  case translate =>
    change 3 ≤ arguments.length at hleast
    refine succeeds_bind (map_argument_succeeds _ arguments _ 0 (by omega)) fun _ _ => ?_
    refine succeeds_bind (map_argument_succeeds _ arguments _ 1 (by omega)) fun _ _ => ?_
    exact succeeds_bind (map_argument_succeeds _ arguments _ 2 hleast) fun _ _ => ⟨_, rfl⟩

end Apply

end CoreFunction

namespace Registry

theorem isSome_ofName?_of_mem : ∀ entry ∈ core, (CoreFunction.ofName? entry.1).isSome = true := by
  decide

/-- The registry and the dispatch on names agree: they know the same names, and each name is
registered with the arity of the function it is dispatched to. -/
theorem get?_core (name : String) :
    core.get? name = (CoreFunction.ofName? name).map CoreFunction.arity := by
  cases h : CoreFunction.ofName? name with
  | some f =>
    obtain rfl := (CoreFunction.ofName?_eq_some_iff name f).mp h
    cases f <;> rfl
  | none =>
    have hnone : core.find? (fun entry => entry.1 == name) = none := by
      rw [List.find?_eq_none]
      intro entry hentry hname
      have hsome := isSome_ofName?_of_mem entry hentry
      rw [beq_iff_eq.mp hname, h] at hsome
      cases hsome
    rw [get?, hnone]
    rfl

theorem validate_core_eq_ok_iff (name : String) (count : Nat) :
    core.validate name count = .ok () ↔
      ∃ f, CoreFunction.ofName? name = some f ∧ f.arity.accepts count = true := by
  unfold validate
  rw [get?_core]
  cases CoreFunction.ofName? name with
  | none => simp
  | some f => simp

end Registry

theorem callFunction_type (tree : Tree) (context : Context) (function : String)
    (f : CoreFunction) (hf : CoreFunction.ofName? function = some f) (arguments : List Value) :
    CoreFunction.YieldsType f.resultType (callFunction tree context function arguments) := by
  intro value hvalue
  unfold callFunction at hvalue
  split at hvalue
  · cases hvalue
  · rw [hf] at hvalue
    exact f.apply_type tree context arguments value hvalue

/-- A call that has a value is one of a core function. -/
theorem exists_of_callFunction_eq_ok (tree : Tree) (context : Context) (function : String)
    (arguments : List Value) (value : Value)
    (h : callFunction tree context function arguments = .ok value) :
    ∃ f, CoreFunction.ofName? function = some f := by
  unfold callFunction at h
  split at h
  · cases h
  · split at h
    · cases h
    · rename_i f hf
      exact ⟨f, hf⟩

theorem callFunction_succeeds (tree : Tree) (context : Context) (function : String)
    (f : CoreFunction) (hf : CoreFunction.ofName? function = some f) (arguments : List Value)
    (hvalid : Registry.core.validate function arguments.length = .ok ())
    (hnodes : f.takesNodes = true → ∀ value ∈ arguments, value.type = .nodeSet) :
    ∃ value, callFunction tree context function arguments = .ok value := by
  obtain ⟨g, hg, haccepts⟩ := (Registry.validate_core_eq_ok_iff _ _).mp hvalid
  obtain rfl : f = g := Option.some.inj (hf.symm.trans hg)
  obtain ⟨value, hvalue⟩ := f.apply_succeeds tree context arguments haccepts hnodes
  exact ⟨value, by simp only [callFunction, hvalid, hf, hvalue]⟩

end XPathQuery
