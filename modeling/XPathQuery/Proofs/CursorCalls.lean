import XPathQuery.Selection.Cursor

/-!
Cursors under any sequence of calls. Until it is detached a cursor has a place between
its items, known from the calls made so far, and whatever it does follows from its items
and that place. Once it is detached every move is refused, and nothing brings the items
back.
-/
namespace XPathQuery.Cursor

variable {α : Type}

/-- A call on a cursor; `look` is any that only asks for something. -/
inductive Call
  | next
  | previous
  | detach
  | look
deriving DecidableEq, Repr

def after (cursor : Cursor α) : Call → Cursor α
  | .next =>
      match cursor.next with
      | .ok (_, moved) => moved
      | .error _ => cursor
  | .previous =>
      match cursor.previous with
      | .ok (_, moved) => moved
      | .error _ => cursor
  | .detach => cursor.detach
  | .look => cursor

def afterAll (cursor : Cursor α) (calls : List Call) : Cursor α := calls.foldl after cursor

def Call.move (count place : Nat) : Call → Nat
  | .next => if place < count then place + 1 else place
  | .previous => place - 1
  | .detach | .look => place

def placeAfter (count place : Nat) (calls : List Call) : Nat := calls.foldl (Call.move count) place

structure StandsAt (items : List α) (place : Nat) (cursor : Cursor α) : Prop where
  place_le : place ≤ items.length
  next_within : ∀ h : place < items.length,
    cursor.next = .ok (some items[place], live items (place + 1))
  next_at_end : place = items.length → cursor.next = .ok (none, cursor)
  previous_within : ∀ before (h : before < items.length), place = before + 1 →
    cursor.previous = .ok (some items[before], live items before)
  previous_at_start : place = 0 → cursor.previous = .ok (none, cursor)
  at_start_of_previous : ∀ moved, cursor.previous = .ok (none, moved) → place = 0
  next_previous : ∀ item moved, cursor.next = .ok (some item, moved) →
    moved.previous = .ok (some item, cursor)
  previous_next : ∀ item moved, cursor.previous = .ok (some item, moved) →
    moved.next = .ok (some item, cursor)
  isDetached_eq : cursor.isDetached = false
  length_eq : cursor.length = items.length
  isEmpty_eq : cursor.isEmpty = items.isEmpty
  root?_eq : cursor.root? = items.head?

structure IsReleased (cursor : Cursor α) : Prop where
  next_refused : cursor.next = .error (.detached .next)
  previous_refused : cursor.previous = .error (.detached .previous)
  detach_eq : cursor.detach = cursor
  isDetached_eq : cursor.isDetached = true
  length_eq : cursor.length = 0
  isEmpty_eq : cursor.isEmpty = true
  root?_eq : cursor.root? = none

section Moves
variable (items : List α) (place : Nat)

theorem next_live_of_lt (h : place < items.length) :
    (live items place).next = .ok (some items[place], live items (place + 1)) := by
  simp only [next, List.getElem?_eq_getElem h]

theorem next_live_of_le (h : items.length ≤ place) :
    (live items place).next = .ok (none, live items place) := by
  simp only [next, List.getElem?_eq_none h]

theorem previous_live_zero : (live items 0).previous = .ok (none, live items 0) := rfl

theorem previous_live_succ (h : place < items.length) :
    (live items (place + 1)).previous = .ok (some items[place], live items place) := by
  simp only [previous, List.getElem?_eq_getElem h]

/-- A cursor with a place among its items does all that is asked of one. -/
theorem standsAt_live (h : place ≤ items.length) : StandsAt items place (live items place) where
  place_le := h
  next_within := next_live_of_lt items place
  next_at_end hend := next_live_of_le items place (Nat.le_of_eq hend.symm)
  previous_within before hbefore hplace := by
    subst hplace
    exact previous_live_succ items before hbefore
  previous_at_start hstart := by
    subst hstart
    exact previous_live_zero items
  at_start_of_previous moved hmoved := by
    cases place with
    | zero => rfl
    | succ before =>
      rw [previous_live_succ items before h] at hmoved
      cases hmoved
  next_previous item moved hmoved := by
    rcases Nat.lt_or_ge place items.length with hlt | hge
    · rw [next_live_of_lt items place hlt] at hmoved
      cases hmoved
      exact previous_live_succ items place hlt
    · rw [next_live_of_le items place hge] at hmoved
      cases hmoved
  previous_next item moved hmoved := by
    cases place with
    | zero => cases hmoved
    | succ before =>
      rw [previous_live_succ items before h] at hmoved
      cases hmoved
      exact next_live_of_lt items before h
  isDetached_eq := rfl
  length_eq := rfl
  isEmpty_eq := by
    cases items <;> rfl
  root?_eq := rfl

end Moves

theorem isReleased_detached : IsReleased (detached : Cursor α) :=
  ⟨rfl, rfl, rfl, rfl, rfl, rfl, rfl⟩

theorem Call.move_le (call : Call) (count place : Nat) (h : place ≤ count) :
    call.move count place ≤ count := by
  cases call with
  | next =>
    rw [move]
    split
    · next hlt => exact hlt
    · exact h
  | previous => exact Nat.le_trans (Nat.sub_le place 1) h
  | detach => exact h
  | look => exact h

/-- A call that does not detach a cursor moves it as it moves the place. -/
theorem after_live (items : List α) (place : Nat) (h : place ≤ items.length) (call : Call)
    (hcall : call ≠ .detach) :
    (live items place).after call = live items (call.move items.length place) := by
  cases call with
  | next =>
    rw [Call.move]
    split
    · next hlt => rw [after, next_live_of_lt items place hlt]
    · next hge => rw [after, next_live_of_le items place (Nat.le_of_not_lt hge)]
  | previous =>
    cases place with
    | zero => rfl
    | succ before => rw [after, previous_live_succ items before h, Call.move, Nat.add_sub_cancel]
  | detach => exact absurd rfl hcall
  | look => rfl

theorem placeAfter_le (count place : Nat) (h : place ≤ count) (calls : List Call) :
    placeAfter count place calls ≤ count := by
  induction calls generalizing place with
  | nil => exact h
  | cons call rest ih => exact ih _ (call.move_le count place h)

theorem afterAll_live (items : List α) (place : Nat) (h : place ≤ items.length)
    (calls : List Call) (hcalls : Call.detach ∉ calls) :
    (live items place).afterAll calls = live items (placeAfter items.length place calls) := by
  induction calls generalizing place with
  | nil => rfl
  | cons call rest ih =>
    obtain ⟨hcall, hrest⟩ := List.ne_and_not_mem_of_not_mem_cons hcalls
    rw [afterAll, List.foldl_cons, after_live items place h call (Ne.symm hcall)]
    exact ih _ (call.move_le items.length place h) hrest

theorem after_detached (call : Call) : (detached : Cursor α).after call = detached := by
  cases call <;> rfl

theorem afterAll_detached (calls : List Call) : (detached : Cursor α).afterAll calls = detached := by
  induction calls with
  | nil => rfl
  | cons call rest ih => rw [afterAll, List.foldl_cons, after_detached, ← afterAll, ih]

/-- No call before or after a detachment makes up for it. -/
theorem afterAll_of_mem (cursor : Cursor α) (calls : List Call) (h : Call.detach ∈ calls) :
    cursor.afterAll calls = detached := by
  obtain ⟨before, rest, rfl⟩ := List.append_of_mem h
  rw [afterAll, List.foldl_append, List.foldl_cons]
  exact afterAll_detached rest

/-- A cursor begins before the first item. After any calls it stands at the place that the
calls lead to, unless one of them detached it. -/
theorem afterAll_ofList (items : List α) (calls : List Call) :
    (Call.detach ∉ calls →
      StandsAt items (placeAfter items.length 0 calls) ((ofList items).afterAll calls)) ∧
    (Call.detach ∈ calls → IsReleased ((ofList items).afterAll calls)) := by
  have hstart : 0 ≤ items.length := Nat.zero_le _
  constructor
  · intro h
    rw [ofList, afterAll_live items 0 hstart calls h]
    exact standsAt_live items _ (placeAfter_le items.length 0 hstart calls)
  · intro h
    rw [afterAll_of_mem _ calls h]
    exact isReleased_detached

/-- Neither end of the items lets a cursor pass. -/
example : (ofList ['a', 'b']).afterAll [.previous, .next, .look, .next, .next] =
    live ['a', 'b'] 2 := by decide

end XPathQuery.Cursor
