import XPathQuery.Tree.Address

/-!
Document order and node-sets. A node comes before its attributes, these come
before its children, and a subtree comes before the next sibling: read from the
root, addresses are in lexicographic order. A node-set is the ascending list of
its nodes, made of any list by merging. Main statements: the merge of two
node-sets holds the nodes of both, and a node-set those of the list it is made of.
-/
namespace XPathQuery

namespace Branch

/-- Attributes branch off before children, each kind by its index. -/
def before : Branch → Branch → Prop
  | .attribute i, .attribute j => i < j
  | .attribute _, .child _ => True
  | .child _, .attribute _ => False
  | .child i, .child j => i < j

instance : LT Branch := ⟨before⟩

instance : DecidableLT Branch
  | .attribute i, .attribute j => inferInstanceAs (Decidable (i < j))
  | .attribute _, .child _ => isTrue trivial
  | .child _, .attribute _ => isFalse id
  | .child i, .child j => inferInstanceAs (Decidable (i < j))

end Branch

namespace Address

/-- Document order. -/
def precedes (a b : Address) : Prop := a.reverse < b.reverse

instance : DecidableRel precedes := fun a b => inferInstanceAs (Decidable (a.reverse < b.reverse))

def compareOrder (a b : Address) : Ordering :=
  if precedes a b then .lt else if a = b then .eq else .gt

end Address

namespace NodeSet

/-- Merges a node and the nodes after it, which `rest` merges with whatever is
left, into a node-set. -/
def mergeFrom (a : Address) (rest : List Address → List Address) : List Address → List Address
  | [] => a :: rest []
  | b :: others =>
      if a.precedes b then a :: rest (b :: others)
      else if a = b then a :: rest others
      else b :: mergeFrom a rest others

/-- The nodes of two node-sets. -/
def union : List Address → List Address → List Address
  | [], others => others
  | a :: nodes, others => mergeFrom a (union nodes) others

/-- Merges neighbouring node-sets in pairs. -/
def mergePairs : List (List Address) → List (List Address)
  | first :: second :: rest => union first second :: mergePairs rest
  | sets => sets

/-- Merges node-sets pairwise, round after round. No more rounds are needed than
`bound` has elements. -/
def mergeRounds : List Address → List (List Address) → List Address
  | _ :: bound, first :: second :: rest => mergeRounds bound (mergePairs (first :: second :: rest))
  | _, sets => sets.foldr union []

/-- The distinct nodes of a list in document order. -/
def ofList (nodes : List Address) : List Address := mergeRounds nodes (nodes.map fun a => [a])

theorem mem_mergeFrom {a b : Address} {rest : List Address → List Address} {nodes : List Address}
    (hrest : ∀ others, a ∈ rest others ↔ a ∈ nodes ∨ a ∈ others) (others : List Address) :
    a ∈ mergeFrom b rest others ↔ a = b ∨ a ∈ nodes ∨ a ∈ others := by
  induction others with
  | nil => simp [mergeFrom, hrest]
  | cons c others ih =>
    unfold mergeFrom
    split
    · simp [hrest]
    · split
      · next h =>
        subst h
        simp only [List.mem_cons, hrest]
        constructor
        · rintro (h | h | h) <;> simp [h]
        · rintro (h | h | h | h) <;> simp [h]
      · simp only [List.mem_cons, ih]
        constructor
        · rintro (h | h | h | h) <;> simp [h]
        · rintro (h | h | h | h) <;> simp [h]

theorem mem_union {a : Address} {nodes others : List Address} :
    a ∈ union nodes others ↔ a ∈ nodes ∨ a ∈ others := by
  induction nodes generalizing others with
  | nil => simp [union]
  | cons b nodes ih =>
    rw [union, mem_mergeFrom fun others => ih, List.mem_cons, or_assoc]

theorem mem_flatten_mergePairs {a : Address} (sets : List (List Address)) :
    a ∈ (mergePairs sets).flatten ↔ a ∈ sets.flatten := by
  match sets with
  | [] => simp [mergePairs]
  | [_] => simp [mergePairs]
  | first :: second :: rest =>
    simp only [mergePairs, List.flatten_cons, List.mem_append, mem_union,
      mem_flatten_mergePairs rest, or_assoc]

theorem mem_foldr_union {a : Address} (sets : List (List Address)) :
    a ∈ sets.foldr union [] ↔ a ∈ sets.flatten := by
  induction sets with
  | nil => simp
  | cons first rest ih => rw [List.foldr_cons, mem_union, ih, List.flatten_cons, List.mem_append]

theorem mem_mergeRounds {a : Address} (bound : List Address) (sets : List (List Address)) :
    a ∈ mergeRounds bound sets ↔ a ∈ sets.flatten := by
  induction bound generalizing sets with
  | nil => exact mem_foldr_union sets
  | cons _ bound ih =>
    match sets with
    | [] => exact mem_foldr_union []
    | [first] => exact mem_foldr_union [first]
    | first :: second :: rest => rw [mergeRounds, ih, mem_flatten_mergePairs]

theorem mem_ofList {a : Address} {nodes : List Address} : a ∈ ofList nodes ↔ a ∈ nodes := by
  rw [ofList, mem_mergeRounds]
  induction nodes with
  | nil => simp
  | cons b nodes ih => rw [List.map_cons, List.flatten_cons, List.mem_append, ih]; simp

end NodeSet

end XPathQuery
