import XPathQuery.Selection.Error

/-!
A cursor over a list of matches. It stands between two matches, before the first
or after the last, and moves over one of them at a time. Once detached it holds
nothing and cannot move.
-/
namespace XPathQuery

inductive Cursor (α : Type)
  | live (items : List α) (position : Nat)
  | detached
deriving DecidableEq, Repr

namespace Cursor

variable {α : Type}

def ofList (items : List α) : Cursor α := live items 0

/-- The match after the cursor, and the cursor moved over it. -/
def next : Cursor α → Except SelectError (Option α × Cursor α)
  | detached => .error (.detached .next)
  | live items position =>
      match items[position]? with
      | some item => .ok (some item, live items (position + 1))
      | none => .ok (none, live items position)

/-- The match before the cursor, and the cursor moved back over it. -/
def previous : Cursor α → Except SelectError (Option α × Cursor α)
  | detached => .error (.detached .previous)
  | live items 0 => .ok (none, live items 0)
  | live items (position + 1) => .ok (items[position]?, live items position)

def detach (_ : Cursor α) : Cursor α := detached

def isDetached : Cursor α → Bool
  | live .. => false
  | detached => true

def length : Cursor α → Nat
  | live items _ => items.length
  | detached => 0

def isEmpty (cursor : Cursor α) : Bool := cursor.length == 0

/-- The first of all matches. -/
def root? : Cursor α → Option α
  | live items _ => items.head?
  | detached => none

/-- The bits of the node types to show: all of them. -/
def whatToShow (_ : Cursor α) : Nat := 0xFFFFFFFF

/-- There is never a filter. -/
def filter? (_ : Cursor α) : Option Unit := none

def expandsEntityReferences (_ : Cursor α) : Bool := true

end Cursor

end XPathQuery
