import XPathQuery.Proofs.AxisOrder
import XPathQuery.Proofs.DocumentTrees

/-!
The text of a node. In a document the string value of the root or of an element, which
joins those of its text and element children, is also the text found by going through all
nodes below it: comments and instructions have nothing below them, and add nothing.
-/
namespace XPathQuery

namespace Tree

def joinedValues (tree : Tree) (kinds : List NodeKind) (nodes : List Address) : String :=
  String.join ((nodes.filter fun m => (tree.kind? m).any kinds.contains).map tree.stringValueOf)

mutual

def treesBelow : Tree → List Tree
  | node _ _ children => treesBelowAll children

def treesBelowAll : List Tree → List Tree
  | [] => []
  | tree :: rest => tree :: (treesBelow tree ++ treesBelowAll rest)

end

def joinedTrees (kinds : List NodeKind) (ts : List Tree) : String :=
  String.join ((ts.filter fun t => kinds.contains t.label.kind).map stringValue)

theorem joinedTrees_cons (kinds : List NodeKind) (t : Tree) (ts : List Tree) :
    joinedTrees kinds (t :: ts) =
      (if kinds.contains t.label.kind then t.stringValue else "") ++
        joinedTrees kinds ts := by
  rw [joinedTrees, List.filter_cons]
  split <;> simp [joinedTrees]

theorem joinedTrees_append (kinds : List NodeKind) (ts us : List Tree) :
    joinedTrees kinds (ts ++ us) = joinedTrees kinds ts ++ joinedTrees kinds us := by
  simp [joinedTrees]

/-- Addresses that are looked up as some trees have the string values of these. -/
theorem joinedValues_of_map_at? {tree : Tree} {nodes : List Address} {ts : List Tree}
    (h : nodes.map tree.at? = ts.map some) (kinds : List NodeKind) :
    tree.joinedValues kinds nodes = joinedTrees kinds ts := by
  induction nodes generalizing ts with
  | nil =>
    obtain rfl : ts = [] := by simpa using h.symm
    rfl
  | cons m nodes ih =>
    cases ts with
    | nil => simp at h
    | cons t ts =>
      obtain ⟨ht, hts⟩ := List.cons.inj h
      have hkind : tree.kind? m = some t.label.kind := by simp [kind?, label?, ht]
      have hvalue : tree.stringValueOf m = t.stringValue := by simp [stringValueOf, ht]
      rw [joinedTrees_cons, ← ih hts, joinedValues, List.filter_cons, hkind, Option.any_some]
      split
      · rw [List.map_cons, String.join_cons, hvalue, joinedValues]
      · rw [String.empty_append, joinedValues]

/-- The children of a node are looked up as the children of its tree. -/
theorem map_at?_childrenOf {tree t : Tree} {node : Address} (h : tree.at? node = some t) :
    (tree.childrenOf node).map tree.at? = t.children.map some := by
  refine List.ext_getElem? fun i => ?_
  simp only [childrenOf, h, List.getElem?_map, List.map_map]
  rcases Nat.lt_or_ge i t.children.length with hi | hi
  · simp [hi, at?, h, branch?]
  · simp [hi]

theorem map_at?_descendantsFromList {tree : Tree} (base : Address) (i : Nat) (ts : List Tree)
    (hlookup : ∀ j t, ts[j]? = some t → tree.at? (.child (i + j) :: base) = some t)
    (hts : ∀ t ∈ ts, ∀ base, tree.at? base = some t →
      (descendantsFrom base t).map tree.at? = t.treesBelow.map some) :
    (descendantsFromList base i ts).map tree.at? = (treesBelowAll ts).map some := by
  induction ts generalizing i with
  | nil => rfl
  | cons t ts ih =>
    have hfirst : tree.at? (.child i :: base) = some t := hlookup 0 t rfl
    have hrest : ∀ j u, ts[j]? = some u → tree.at? (.child (i + 1 + j) :: base) = some u := by
      intro j u hu
      rw [Nat.add_assoc, Nat.add_comm 1 j]
      exact hlookup (j + 1) u hu
    rw [descendantsFromList, treesBelowAll]
    simp only [List.map_cons, List.map_append]
    rw [hfirst, hts t List.mem_cons_self _ hfirst,
      ih (i + 1) hrest fun u hu => hts u (List.mem_cons_of_mem t hu)]

/-- The descendants of a node are looked up as the trees below it. -/
theorem map_at?_descendantsFrom {tree t : Tree} {base : Address} (h : tree.at? base = some t) :
    (descendantsFrom base t).map tree.at? = t.treesBelow.map some := by
  induction t using induct generalizing base with
  | step label attributes children _ hchildren =>
    rw [descendantsFrom, treesBelow]
    refine map_at?_descendantsFromList base 0 children (fun j t ht => ?_)
      fun t ht base hbase => hchildren t ht hbase
    rw [at?, h, Nat.zero_add]
    exact ht

/-- The content of the text nodes below is what the flat list of them holds. -/
theorem innerText_eq_joinedTrees (t : Tree) : innerText t = joinedTrees [.text] t.treesBelow := by
  have hlist : ∀ ts : List Tree, (∀ t ∈ ts, innerText t = joinedTrees [.text] t.treesBelow) →
      innerTexts ts = joinedTrees [.text] (treesBelowAll ts) := by
    intro ts hts
    induction ts with
    | nil => rfl
    | cons t ts ih =>
      obtain ⟨ht, hts⟩ := List.forall_mem_cons.mp hts
      rw [innerTexts, treesBelowAll, joinedTrees_cons, joinedTrees_append, ht, ih hts,
        String.append_assoc]
      congr 1
      obtain ⟨label, attributes, children⟩ := t
      by_cases hkind : label.kind = .text
      · simp [Tree.label, hkind, stringValue]
      · simp [Tree.label, hkind]
  induction t using induct with
  | step label attributes children _ hchildren => exact hlist children hchildren

theorem contentValue_eq_joinedTrees (ts : List Tree) :
    contentValue ts = joinedTrees [.text, .element] ts := by
  induction ts with
  | nil => rfl
  | cons t ts ih =>
    rw [contentValue, joinedTrees_cons, ih]
    cases t.label.kind <;> rfl

section Content
variable {t : Tree} (hkind : t.label.kind = .root ∨ t.label.kind = .element)
include hkind

theorem stringValue_eq_contentValue : t.stringValue = contentValue t.children := by
  obtain ⟨label, attributes, children⟩ := t
  rcases hkind with hkind | hkind <;>
    simp only [Tree.label] at hkind <;> simp only [stringValue, Tree.children, hkind]

theorem textContent_eq_innerText : t.textContent = innerText t := by
  rw [textContent]
  rcases hkind with hkind | hkind <;> rw [hkind]

end Content

theorem innerText_of_childless {t : Tree} (h : t.children = []) : innerText t = "" := by
  obtain ⟨label, attributes, children⟩ := t
  obtain rfl : children = [] := h
  rfl

/-- What a child adds to the text around it. Only texts and elements add anything. -/
theorem contentValue_eq_innerTexts {ts : List Tree}
    (h : ∀ t ∈ ts, ContentContract t ∧ t.label.kind ≠ .root ∧
      (t.label.kind = .element → t.stringValue = innerText t)) :
    contentValue ts = innerTexts ts := by
  induction ts with
  | nil => rfl
  | cons t ts ih =>
    obtain ⟨⟨hcontract, hroot, helement⟩, hts⟩ := List.forall_mem_cons.mp h
    have hchildless : t.label.kind ≠ .element → innerText t = "" := by
      intro hnot
      refine innerText_of_childless (Classical.byContradiction fun hchildren => ?_)
      exact (hcontract.parent_kind hchildren).elim hroot hnot
    rw [contentValue, innerTexts, ih hts]
    cases hkind : t.label.kind with
    | root => exact absurd hkind hroot
    | element => simp [helement hkind]
    | text =>
      obtain ⟨label, attributes, children⟩ := t
      have hvalue : (node label attributes children).stringValue = label.value := by
        simp only [Tree.label] at hkind
        simp only [stringValue, hkind]
      rw [hchildless (by simp [hkind]), hvalue]
      simp [Tree.label]
    | _ => simp [hchildless (by simp [hkind])]

/-- The string value of a root or an element holds the content of all text nodes below. -/
theorem stringValue_eq_innerText {t : Tree} (h : ∀ a s, t.at? a = some s → ContentContract s)
    (hkind : t.label.kind = .root ∨ t.label.kind = .element) : t.stringValue = innerText t := by
  induction t using induct with
  | step label attributes children _ hchildren =>
    have hbelow : ∀ s ∈ children, ∀ a u, s.at? a = some u → ContentContract u := by
      intro s hs a u hu
      obtain ⟨i, hi⟩ := List.mem_iff_getElem?.mp hs
      refine h (a ++ [.child i]) u ?_
      rw [at?_concat, branch?, Tree.children, hi]
      exact hu
    rw [stringValue_eq_contentValue hkind, innerText]
    refine contentValue_eq_innerTexts fun s hs => ⟨hbelow s hs [] s rfl, ?_, fun helement => ?_⟩
    · exact (h [] _ rfl).child_ne_root s hs
    · exact hchildren s hs (hbelow s hs) (Or.inr helement)

end Tree

/-- The text of the root or an element of a document, in four ways: its string value, the
text it holds, the texts on its descendant axis, and its texts and elements one by one. -/
theorem Markup.stringValueOf_eq_texts {source : String} {tree : Tree}
    (hread : read source = some tree) (node : Address)
    (hkind : tree.kind? node = some .root ∨ tree.kind? node = some .element) :
    (tree.at? node).map Tree.textContent = some (tree.stringValueOf node) ∧
      tree.joinedValues [.text] (tree.axisNodes .descendant node) = tree.stringValueOf node ∧
      tree.joinedValues [.text, .element] (tree.axisNodes .child node) =
        tree.stringValueOf node := by
  obtain ⟨t, ht, hlabel⟩ : ∃ t, tree.at? node = some t ∧
      (t.label.kind = .root ∨ t.label.kind = .element) := by
    simpa [Tree.kind?, Tree.label?, ← exists_or, ← and_or_left] using hkind
  have hcontent : ∀ a s, t.at? a = some s → Tree.ContentContract s := by
    intro a s hs
    refine (isDocument_of_read hread).content (a ++ node) s ?_
    rw [Tree.at?_append, ht]
    exact hs
  have hvalue : tree.stringValueOf node = t.stringValue := by rw [Tree.stringValueOf, ht]
  have hinner := Tree.stringValue_eq_innerText hcontent hlabel
  refine ⟨?_, ?_, ?_⟩
  · rw [ht, Option.map_some, Tree.textContent_eq_innerText hlabel, hvalue, hinner]
  · have hlookup : (tree.descendantsOf node).map tree.at? = t.treesBelow.map some := by
      rw [Tree.descendantsOf, ht]
      exact Tree.map_at?_descendantsFrom ht
    rw [hvalue, hinner, Tree.innerText_eq_joinedTrees]
    exact Tree.joinedValues_of_map_at? hlookup [.text]
  · rw [hvalue, Tree.stringValue_eq_contentValue hlabel, Tree.contentValue_eq_joinedTrees]
    exact Tree.joinedValues_of_map_at? (Tree.map_at?_childrenOf ht) [.text, .element]

/-- An element with a comment, an instruction and an empty text in the way. -/
theorem Markup.stringValueOf_eq_texts_mixed :
    ∃ tree, read "<r>a<!--c--><b>b<?p d?><i/></b><![CDATA[]]></r>" = some tree ∧
      tree.kind? [.child 0] = some .element ∧
      tree.stringValueOf [.child 0] = "ab" ∧
      (tree.at? [.child 0]).map Tree.textContent = some "ab" ∧
      tree.joinedValues [.text] (tree.axisNodes .descendant [.child 0]) = "ab" ∧
      tree.joinedValues [.text, .element] (tree.axisNodes .child [.child 0]) = "ab" := by
  obtain ⟨_, tree, -, hread, hkind, hvalue⟩ :
      ∃ items tree,
        document "<r>a<!--c--><b>b<?p d?><i/></b><![CDATA[]]></r>".toList = some items ∧
        read "<r>a<!--c--><b>b<?p d?><i/></b><![CDATA[]]></r>" = some tree ∧
        tree.kind? [.child 0] = some .element ∧ tree.stringValueOf [.child 0] = "ab" :=
    exists_of_read (by decide +kernel) (by decide +kernel) (by decide +kernel)
  obtain ⟨hheld, hdescendants, hchildren⟩ :=
    stringValueOf_eq_texts hread [.child 0] (Or.inr hkind)
  rw [hvalue] at hheld hdescendants hchildren
  exact ⟨tree, hread, hkind, hvalue, hheld, hdescendants, hchildren⟩

end XPathQuery
