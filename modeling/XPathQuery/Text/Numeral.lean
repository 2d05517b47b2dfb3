import XPathQuery.Number.Decimal
import XPathQuery.Text.Search

/-!
Reading a number from text. White space around it is ignored; what remains is
an optional minus sign and digits with at most one point, and every other text
is not a number.
-/
namespace XPathQuery.Text

def isDigitOrPoint (c : Char) : Bool := c.isDigit || c == '.'

/-- Unsigned numbers: ASCII digits, at least one, and at most one point. -/
def isUnsignedNumber (cs : List Char) : Bool :=
  cs.any Char.isDigit && cs.all isDigitOrPoint && cs.count '.' ≤ 1

/-- A text without its minus sign, and whether it had one. -/
def unsigned : List Char → Bool × List Char
  | '-' :: cs => (true, cs)
  | cs => (false, cs)

def toNumber (cs : List Char) : Double :=
  let (negative, digits) := unsigned (trim cs)
  if isUnsignedNumber digits then Double.ofDigits negative digits else .nan

end XPathQuery.Text
