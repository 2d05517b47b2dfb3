import XPathQuery.Character.Ranges

/-!
Two notions of white space. Markup and expressions skip four characters only;
trimming a text and splitting it into words use the Unicode property
White_Space, which has twenty-five.
-/
namespace XPathQuery.Character

/-- Ranges of the property White_Space. -/
def spaceRanges : List (Nat × Nat) :=
  [(0x9, 0xD), (0x20, 0x20), (0x85, 0x85), (0xA0, 0xA0), (0x1680, 0x1680), (0x2000, 0x200A),
    (0x2028, 0x2029), (0x202F, 0x202F), (0x205F, 0x205F), (0x3000, 0x3000)]

/-- Space in the wide sense: every character with the property White_Space. -/
def isSpace (c : Char) : Bool := inRanges c.toNat spaceRanges

/-- Space in the narrow sense: space, tab, carriage return and line feed. -/
def isBlank (c : Char) : Bool := c == ' ' || c == '\t' || c == '\r' || c == '\n'

theorem eq_of_isBlank {c : Char} (h : isBlank c = true) :
    c = ' ' ∨ c = '\t' ∨ c = '\r' ∨ c = '\n' := by
  simpa only [isBlank, Bool.or_eq_true, beq_iff_eq, or_assoc] using h

theorem isSpace_of_isBlank {c : Char} (h : isBlank c = true) : isSpace c = true := by
  rcases eq_of_isBlank h with rfl | rfl | rfl | rfl <;> decide

end XPathQuery.Character
