import XPathQuery.Proofs.AxisNodes
import XPathQuery.Proofs.DescendantSteps
import XPathQuery.Proofs.PredicateNumbering
import XPathQuery.Proofs.TypeSoundness

/-!
Declared languages. A node has the language that the nearest element around it declares,
whatever the elements farther out say. The function that asks for a language climbs to this
element on its own. A path finds it too: the first element on the way up with an attribute
for the language, and from there that attribute.
-/
namespace XPathQuery

/-- A declared language is a wanted one when the names are the same in lower case, or when
the declared one goes on after a hyphen. -/
def IsLanguage (wanted declared : String) : Prop :=
  Character.lowerCase declared.toList = Character.lowerCase wanted.toList ∨
    Character.lowerCase wanted.toList ++ ['-'] <+: Character.lowerCase declared.toList

theorem languageMatches_iff (wanted declared : String) :
    languageMatches wanted declared = true ↔ IsLanguage wanted declared := by
  simp [languageMatches, IsLanguage]

namespace Tree

def DeclaresLanguage (tree : Tree) (element a : Address) : Prop :=
  tree.IsAttributeOf element a ∧ ∃ label ∈ tree.label? a,
    label.uri = some xmlNamespace ∧ label.name.map QName.localPart = some "lang"

def LanguagesUnique (tree : Tree) : Prop :=
  ∀ element ∈ tree.addresses, ∀ a ∈ tree.addresses, ∀ b ∈ tree.addresses,
    tree.DeclaresLanguage element a → tree.DeclaresLanguage element b → a = b

/-- The declaration of the nearest element that has one, from the node itself outwards. -/
def NearestLanguage (tree : Tree) (node a : Address) : Prop :=
  ∃ nearer element farther, node :: node.ancestors = nearer ++ element :: farther ∧
    (∀ e ∈ nearer, ∀ b, ¬ tree.DeclaresLanguage e b) ∧ tree.DeclaresLanguage element a

instance (tree : Tree) (element a : Address) : Decidable (tree.DeclaresLanguage element a) := by
  unfold DeclaresLanguage IsAttributeOf
  infer_instance

instance (tree : Tree) : Decidable tree.LanguagesUnique := by
  unfold LanguagesUnique
  infer_instance

end Tree

def languageTest : NodeTest := .name (some "xml") "lang" (some xmlNamespace)

theorem passes_languageTest_iff (label : Label) :
    languageTest.passes .attribute label = true ↔
      label.kind = .attribute ∧ label.uri = some xmlNamespace ∧
        label.name.map QName.localPart = some "lang" := by
  have huri : label.uri.filter (· != "") = some xmlNamespace ↔ label.uri = some xmlNamespace := by
    rw [Option.filter_eq_some_iff, and_iff_left]
    decide
  simp only [NodeTest.passes, languageTest, Bool.and_eq_true, beq_iff_eq, huri, if_true,
    Option.any_eq_true, Option.map_eq_some_iff]
  tauto

/-- A search that gives what it makes of the first hit. -/
theorem findSome?_eq_map_find? {α β : Type} {f : α → Option β} {p : α → Bool} {g : α → β}
    {xs : List α} (h : ∀ a ∈ xs, f a = if p a then some (g a) else none) :
    xs.findSome? f = (xs.find? p).map g := by
  induction xs with
  | nil => rfl
  | cons a xs ih =>
    obtain ⟨ha, hxs⟩ := List.forall_mem_cons.mp h
    rw [List.findSome?_cons, List.find?_cons, ha, ih hxs]
    cases p a <;> rfl

namespace Tree

variable {tree : Tree}

theorem IsAttributeOf.kind {n a : Address} (h : tree.IsAttributeOf n a) {label : Label}
    (hlabel : tree.label? a = some label) : label.kind = .attribute := by
  have hattribute := h.2.1
  rw [isAttribute, kind?, hlabel] at hattribute
  simpa using hattribute

theorem LanguagesUnique.eq_of_declares (hunique : tree.LanguagesUnique) {element a b : Address}
    (ha : tree.DeclaresLanguage element a) (hb : tree.DeclaresLanguage element b) : a = b := by
  obtain ⟨branch, hbranch⟩ := (Address.parent?_eq_some_iff a element).mp ha.1.2.2
  have helement : element ∈ tree.addresses := by
    apply mem_addresses_of_append tree [branch]
    rw [List.singleton_append, ← hbranch]
    exact ha.1.1
  exact hunique element helement a ha.1.1 b hb.1.1 ha hb

section WellFormed
variable (hwf : tree.WellFormed)
include hwf

theorem WellFormed.axisNodes_attribute (n : Address) :
    tree.axisNodes .attribute n = tree.attributesOf n := by
  rw [axisNodes]
  split
  · rfl
  · rename_i hkind
    symm
    rw [List.eq_nil_iff_forall_not_mem]
    intro a ha
    have haxis := (hwf.mem_attributeAxis n a).mpr
      ((hwf.isAttributeOf_iff n a).mpr ((mem_attributesOf tree n a).mp ha))
    rw [axisNodes, if_neg hkind] at haxis
    cases haxis

theorem WellFormed.mem_stepNodes_language (n a : Address) :
    a ∈ tree.stepNodes .attribute languageTest n ↔ tree.DeclaresLanguage n a := by
  rw [mem_stepNodes, hwf.mem_attributeAxis, DeclaresLanguage]
  refine and_congr_right fun hattribute => ?_
  rw [Option.any_eq_true]
  refine exists_congr fun label => and_congr_right fun hlabel => ?_
  rw [passes_languageTest_iff, and_iff_right (hattribute.kind hlabel)]

/-- An element declares the language of its first attribute for it. -/
theorem WellFormed.languageAt?_eq (n : Address) :
    tree.languageAt? n =
      (tree.stepNodes .attribute languageTest n).head?.map tree.stringValueOf := by
  rw [languageAt?, stepNodes, List.head?_filter, hwf.axisNodes_attribute]
  apply findSome?_eq_map_find?
  intro a ha
  have hattribute := (hwf.isAttributeOf_iff n a).mpr ((mem_attributesOf tree n a).mp ha)
  cases hlabel : tree.label? a with
  | none => rfl
  | some label =>
    have hpasses : languageTest.passes .attribute label =
        (label.uri == some xmlNamespace && label.name.any (·.localPart == "lang")) := by
      rw [Bool.eq_iff_iff, passes_languageTest_iff, and_iff_right (hattribute.kind hlabel)]
      simp [Option.any_eq_true]
    rw [Option.any_some, hpasses]

end WellFormed

/-! ### The way up to the nearest declaration -/

def hasLanguage (tree : Tree) (element : Address) : Bool :=
  !(tree.stepNodes .attribute languageTest element).isEmpty

def nearestLanguages (tree : Tree) (node : Address) : List Address :=
  ((node :: node.ancestors).find? tree.hasLanguage).elim []
    (tree.stepNodes .attribute languageTest)

theorem kind?_of_hasLanguage {n : Address} (h : tree.hasLanguage n = true) :
    tree.kind? n = some .element := by
  by_contra hkind
  rw [hasLanguage, stepNodes, axisNodes, if_neg hkind] at h
  cases h

section WellFormed
variable (hwf : tree.WellFormed)
include hwf

theorem WellFormed.hasLanguage_iff (n : Address) :
    tree.hasLanguage n = true ↔ ∃ a, tree.DeclaresLanguage n a := by
  simp only [← hwf.mem_stepNodes_language]
  rw [hasLanguage, Bool.not_eq_true', ← Bool.not_eq_true, List.isEmpty_iff,
    List.eq_nil_iff_forall_not_mem, not_forall_not]

/-- The language of a node is that of the first element with one on the way up. -/
theorem WellFormed.languageOf?_eq (node : Address) :
    tree.languageOf? node = ((node :: node.ancestors).find? tree.hasLanguage).map
      fun element => (tree.languageAt? element).getD "" := by
  have hlanguage : ∀ n, tree.languageAt? n =
      if tree.hasLanguage n then some ((tree.languageAt? n).getD "") else none := by
    intro n
    rw [hasLanguage, hwf.languageAt?_eq]
    cases tree.stepNodes .attribute languageTest n <;> rfl
  have hway : tree.languageOf? node = (node :: node.ancestors).findSome? tree.languageAt? := by
    rw [languageOf?]
    split
    · rfl
    · rename_i hkind
      rw [List.findSome?_cons, hlanguage node, if_neg (mt kind?_of_hasLanguage hkind)]
  rw [hway]
  exact findSome?_eq_map_find? fun n _ => hlanguage n

theorem WellFormed.mem_nearestLanguages (node a : Address) :
    a ∈ tree.nearestLanguages node ↔ tree.NearestLanguage node a := by
  have hnone : ∀ nearer : List Address, (∀ e ∈ nearer, (!tree.hasLanguage e) = true) ↔
      ∀ e ∈ nearer, ∀ b, ¬ tree.DeclaresLanguage e b := by
    intro nearer
    refine forall₂_congr fun e _ => ?_
    rw [Bool.not_eq_true', ← Bool.not_eq_true, hwf.hasLanguage_iff, not_exists]
  have hfirst : a ∈ tree.nearestLanguages node ↔
      ∃ element, (node :: node.ancestors).find? tree.hasLanguage = some element ∧
        tree.DeclaresLanguage element a := by
    rw [nearestLanguages]
    cases (node :: node.ancestors).find? tree.hasLanguage with
    | none => simp
    | some element => simp [hwf.mem_stepNodes_language]
  simp only [hfirst, List.find?_eq_some_iff_append, hnone]
  constructor
  · intro h
    obtain ⟨element, ⟨_, nearer, farther, hway, hnearer⟩, ha⟩ := h
    exact ⟨nearer, element, farther, hway, hnearer, ha⟩
  · intro h
    obtain ⟨nearer, element, farther, hway, hnearer, ha⟩ := h
    exact ⟨element, ⟨(hwf.hasLanguage_iff element).mpr ⟨a, ha⟩, nearer, farther, hway, hnearer⟩, ha⟩

/-- With one declaration for each element at most, a language is the wanted one if any of
the nearest declarations says so. -/
theorem WellFormed.languageOf?_any_iff (hunique : tree.LanguagesUnique) (node : Address)
    (wanted : String) :
    (tree.languageOf? node).any (languageMatches wanted) = true ↔
      ∃ a ∈ tree.nearestLanguages node, IsLanguage wanted (tree.stringValueOf a) := by
  rw [hwf.languageOf?_eq, nearestLanguages]
  cases hfind : (node :: node.ancestors).find? tree.hasLanguage with
  | none => simp
  | some element =>
    obtain ⟨a, ha⟩ := (hwf.hasLanguage_iff element).mp (List.find?_some hfind)
    have honly : ∀ b ∈ tree.stepNodes .attribute languageTest element, b = a := by
      intro b hb
      exact hunique.eq_of_declares ((hwf.mem_stepNodes_language element b).mp hb) ha
    have hmem := (hwf.mem_stepNodes_language element a).mpr ha
    have hhead : (tree.stepNodes .attribute languageTest element).head? = some a := by
      obtain ⟨b, rest, hnodes⟩ := List.exists_cons_of_ne_nil (List.ne_nil_of_mem hmem)
      rw [hnodes, List.head?_cons, honly b (hnodes ▸ List.mem_cons_self)]
    simp only [Option.map_some, Option.any_some, Option.elim_some, hwf.languageAt?_eq, hhead,
      Option.getD_some, languageMatches_iff]
    constructor
    · intro h
      exact ⟨a, hmem, h⟩
    · intro h
      obtain ⟨b, hb, h⟩ := h
      exact honly b hb ▸ h

end WellFormed

end Tree

/-- A predicate with nodes for its value keeps where there are some. -/
theorem keepNodes_of_nodes {predicate : Context → Except XPathError Value}
    {found : Address → List Address}
    (h : ∀ context, predicate context = .ok (.nodes (found context.node))) (root : Address)
    (size position : Nat) (nodes : List Address) :
    keepNodes predicate root size position nodes =
      .ok (nodes.filter fun n => !(found n).isEmpty) := by
  induction nodes generalizing position with
  | nil => rfl
  | cons node rest ih =>
    rw [keepNodes_cons_eq_ok]
    refine ⟨_, _, h _, ih _, ?_⟩
    rw [List.filter_cons]
    rfl

/-- The way to the nearest declaration as the steps of a path: up to the first element with
the attribute, and to the attribute. -/
def languageSteps : List Step :=
  let toAttribute : Step := .step .attribute languageTest []
  [.step .ancestorOrSelf .wildcard [.path .context [toAttribute], .number (.ofNat 1)], toAttribute]

theorem evaluate_languageTest (tree : Tree) (context : Context) :
    evaluate tree (.path .context [.step .attribute languageTest []]) context =
      .ok (.nodes (tree.stepNodes .attribute languageTest context.node)) := by
  rw [evaluate_bare_step, (tree.stepNodes_ascending _ _ _ rfl).ofList_eq_self]

theorem narrow_language (tree : Tree) (root : Address) (nodes : List Address) :
    narrow tree [.path .context [.step .attribute languageTest []], .number (.ofNat 1)] root
      nodes = .ok (nodes.find? tree.hasLanguage).toList := by
  rw [narrow_cons_eq_ok]
  refine ⟨_, keepNodes_of_nodes (evaluate_languageTest tree) root _ 1 nodes, ?_⟩
  rw [narrow_count tree root Nat.one_pos _ (Or.inl (by decide)), ← List.head?_eq_getElem?,
    List.head?_filter]
  rfl

theorem find?_stepNodes_wildcard (tree : Tree) (node : Address) :
    (tree.stepNodes .ancestorOrSelf .wildcard node).find? tree.hasLanguage =
      (node :: node.ancestors).find? tree.hasLanguage := by
  rw [Tree.stepNodes, List.find?_filter]
  congr 1
  funext n
  rw [Bool.eq_iff_iff, decide_eq_true_iff, and_iff_right_iff_imp]
  intro h
  obtain ⟨label, hlabel, hkind⟩ := Option.map_eq_some_iff.mp (Tree.kind?_of_hasLanguage h)
  rw [hlabel, Option.any_some]
  simp [NodeTest.passes, hkind]

theorem evaluate_languageSteps (tree : Tree) (context : Context) :
    evaluate tree (.path .context languageSteps) context =
      .ok (.nodes (tree.nearestLanguages context.node)) := by
  rw [Tree.nearestLanguages, evaluate_path_eq_ok]
  refine ⟨_, _, startNodes_context tree context, ?_, rfl⟩
  rw [languageSteps, walk, gather_singleton, narrow_language, find?_stepNodes_wildcard]
  change walk tree _ _ (NodeSet.ofList _) = _
  rw [(ascending_toList _).ofList_eq_self]
  cases (context.node :: context.node.ancestors).find? tree.hasLanguage with
  | none =>
    rw [Option.toList_none, walk]
    exact walk_nil tree context.root []
  | some element =>
    rw [Option.toList_some, walk, gather_singleton, narrow_nil]
    change walk tree [] context.root (NodeSet.ofList _) = _
    rw [walk_nil, (tree.stepNodes_ascending _ _ _ rfl).ofList_eq_self]
    rfl

/-- The path to the nearest declaration, with the prefix `xml` bound. -/
theorem ofSource_language (resolver : Resolver) (hxml : resolver "xml" = some xmlNamespace) :
    Compiled.ofSource resolver "ancestor-or-self::*[@xml:lang][1]/@xml:lang" =
      .ok ⟨"ancestor-or-self::*[@xml:lang][1]/@xml:lang", .path .context languageSteps⟩ := by
  have hparse : Expr.parse "ancestor-or-self::*[@xml:lang][1]/@xml:lang" = .ok
      (let toAttribute : Step := .step .attribute (.name (some "xml") "lang" none) []
       .path .context [.step .ancestorOrSelf .wildcard
         [.path .context [toAttribute], .number (.ofNat 1)], toAttribute]) := by
    decide +kernel
  have hwildcard : NodeTest.bind resolver .wildcard = .ok .wildcard := rfl
  have htest : NodeTest.bind resolver (.name (some "xml") "lang" none) = .ok languageTest := by
    have hne : xmlNamespace ≠ "" := by decide
    simp only [NodeTest.bind, NodeTest.bindPrefix, hxml, if_neg hne]
    rfl
  rw [Compiled.ofSource, hparse]
  simp only [Expr.bind, PathStart.bind, bindSteps, bindAll, hwildcard, htest, bind, Except.bind,
    pure, Except.pure]
  rfl

/-- The path to the nearest declaration and the function for languages at one node: the path
selects `declared`, the function is true of the languages declared there and of no other. -/
structure LanguageLaws (tree : Tree) (path : Compiled) (context : Context)
    (declared : List Address) : Prop where
  selects : path.evaluateNodes tree context.node = .ok declared
  nearest : ∀ a, a ∈ declared ↔ tree.NearestLanguage context.node a
  calls : ∀ wanted : String, ∃ verdict,
    callFunction tree context "lang" [.string wanted] = .ok (.boolean verdict) ∧
      (verdict = true ↔ ∃ a ∈ declared, IsLanguage wanted (tree.stringValueOf a))
  undeclared : (∀ element ∈ context.node :: context.node.ancestors, ∀ a,
    ¬ tree.DeclaresLanguage element a) → ∀ wanted : String,
      callFunction tree context "lang" [.string wanted] = .ok (.boolean false)

theorem callFunction_lang (tree : Tree) (context : Context) (wanted : String) :
    callFunction tree context "lang" [.string wanted] =
      .ok (.boolean ((tree.languageOf? context.node).any (languageMatches wanted))) := by
  have hcall : callFunction tree context "lang" [.string wanted] = .ok (.boolean
      ((tree.languageOf? context.node).any (languageMatches (String.ofList wanted.toList)))) := rfl
  rw [hcall, String.ofList_toList]

/-- The function for languages is true of a node when the path to the nearest declaration
selects one of the wanted language. -/
theorem callFunction_lang_iff_path (tree : Tree) (hwf : tree.WellFormed)
    (hunique : tree.LanguagesUnique) (resolver : Resolver)
    (hxml : resolver "xml" = some xmlNamespace) :
    ∃ path,
      Compiled.ofSource resolver "ancestor-or-self::*[@xml:lang][1]/@xml:lang" = .ok path ∧
      ∀ context, ∃ declared, LanguageLaws tree path context declared := by
  refine ⟨_, ofSource_language resolver hxml, ?_⟩
  intro context
  refine ⟨tree.nearestLanguages context.node, ?_, hwf.mem_nearestLanguages context.node, ?_, ?_⟩
  · exact (Compiled.evaluateNodes_eq_ok _ tree _ _).mpr
      (evaluate_languageSteps tree (.ofNode context.node))
  · intro wanted
    exact ⟨_, callFunction_lang tree context wanted,
      hwf.languageOf?_any_iff hunique context.node wanted⟩
  · intro hnone wanted
    have hverdict : (tree.languageOf? context.node).any (languageMatches wanted) = false := by
      rw [Bool.eq_false_iff, Ne, hwf.languageOf?_any_iff hunique]
      intro h
      obtain ⟨a, ha, _⟩ := h
      obtain ⟨nearer, element, farther, hway, _, hdeclares⟩ :=
        (hwf.mem_nearestLanguages context.node a).mp ha
      have hmem : element ∈ context.node :: context.node.ancestors := by
        rw [hway]
        exact List.mem_append_right nearer List.mem_cons_self
      exact hnone element hmem a hdeclares
    rw [callFunction_lang, hverdict]

/-- An empty declaration hides the one farther out, also from the text inside. -/
theorem callFunction_lang_iff_path_hidden :
    let language (value : String) : Tree :=
      .node ⟨.attribute, some ⟨some "xml", "lang"⟩, some xmlNamespace, value, []⟩ [] []
    let element : Label := ⟨.element, none, none, "", []⟩
    let inner : Tree := .node element [language ""] [.node ⟨.text, none, none, "", []⟩ [] []]
    let tree : Tree :=
      .node ⟨.root, none, none, "", []⟩ [] [.node element [language "EN-us"] [inner]]
    let resolver : Resolver := fun p => if p = "xml" then some xmlNamespace else none
    let text : Address := [.child 0, .child 0, .child 0]
    ∃ path hidden outer,
      Compiled.ofSource resolver "ancestor-or-self::*[@xml:lang][1]/@xml:lang" = .ok path ∧
      path.evaluateNodes tree text = .ok hidden ∧
      callFunction tree (.ofNode text) "lang" [.string "en"] = .ok (.boolean false) ∧
      (∀ a ∈ hidden, ¬ IsLanguage "en" (tree.stringValueOf a)) ∧
      path.evaluateNodes tree [.child 0] = .ok outer ∧
      callFunction tree (.ofNode [.child 0]) "lang" [.string "en"] = .ok (.boolean true) ∧
      ∃ a ∈ outer, IsLanguage "en" (tree.stringValueOf a) := by
  intro language element inner tree resolver text
  have hfalse : callFunction tree (.ofNode text) "lang" [.string "en"] = .ok (.boolean false) := by
    decide +kernel
  have htrue : callFunction tree (.ofNode [.child 0]) "lang" [.string "en"] =
      .ok (.boolean true) := by
    decide +kernel
  obtain ⟨path, hpath, hlaws⟩ :=
    callFunction_lang_iff_path tree (by decide) (by decide) resolver rfl
  obtain ⟨hidden, hhidden⟩ := hlaws (.ofNode text)
  obtain ⟨outer, houter⟩ := hlaws (.ofNode [.child 0])
  obtain ⟨verdict, hcall, hverdict⟩ := hhidden.calls "en"
  obtain ⟨verdict', hcall', hverdict'⟩ := houter.calls "en"
  cases hfalse.symm.trans hcall
  cases htrue.symm.trans hcall'
  refine ⟨path, hidden, outer, hpath, hhidden.selects, hfalse, ?_, houter.selects, htrue,
    hverdict'.mp rfl⟩
  intro a ha hlanguage
  cases hverdict.mpr ⟨a, ha, hlanguage⟩

end XPathQuery
