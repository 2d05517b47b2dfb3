import XPathQuery.Number.Double

/-!
Decimal text of doubles. Writing takes the fewest digits that read back as the
same number, of those the nearest, and of two equally near the larger in
magnitude. They are always written positionally. Reading accepts a sign, digits
and one point, and rounds the exact decimal value once.
-/
namespace XPathQuery

/-- The value `digits * 10 ^ exponent`. -/
structure Decimal where
  digits : Nat
  exponent : Int
deriving DecidableEq, Repr

namespace Decimal

def tenTo (exponent : Nat) : Nat := Nat.pow 10 exponent

def decimalDigits (n : Nat) : List Char := Nat.toDigits 10 n

/-- Digits with the point where the exponent puts it, padded with zeros. -/
def text (d : Decimal) : List Char :=
  match d.exponent with
  | .ofNat zeros => decimalDigits d.digits ++ List.replicate zeros '0'
  | .negSucc places =>
      let scale := tenTo (places + 1)
      let fraction := decimalDigits (d.digits % scale)
      decimalDigits (d.digits / scale) ++ '.' ::
        (List.replicate (places + 1 - fraction.length) '0' ++ fraction)

/-- Compares a decimal with the fraction `numerator / denominator`. -/
def compareFraction (d : Decimal) (numerator denominator : Nat) : Ordering :=
  match d.exponent with
  | .ofNat zeros => compare (d.digits * tenTo zeros * denominator) numerator
  | .negSucc places => compare (d.digits * denominator) (numerator * tenTo (places + 1))

/-- The decimal of an exponent that lies just below a fraction or on it. -/
def below (numerator denominator : Nat) : Int → Decimal
  | .ofNat zeros => ⟨numerator / (denominator * tenTo zeros), .ofNat zeros⟩
  | .negSucc places => ⟨numerator * tenTo (places + 1) / denominator, .negSucc places⟩

def above (numerator denominator : Nat) (exponent : Int) : Decimal :=
  let d := below numerator denominator exponent
  ⟨d.digits + 1, exponent⟩

/-- Drops one trailing zero, which only a carry into a new digit leaves behind. -/
def normal (d : Decimal) : Decimal :=
  if d.digits = 10 then ⟨1, d.exponent + 1⟩ else d

/-- Whether a decimal rounds to the magnitude of a rank. The limits lie halfway
to the neighbouring ranks and belong to the even one. -/
def roundsTo (rank : Nat) (d : Decimal) : Bool :=
  let low := d.compareFraction
    (Double.unitsOf (rank - 1) + Double.unitsOf rank) (2 * Double.one)
  let high := d.compareFraction
    (Double.unitsOf rank + Double.unitsOf (rank + 1)) (2 * Double.one)
  (low == .gt || (low == .eq && rank % 2 == 0)) &&
    (high == .lt || (high == .eq && rank % 2 == 0))

/-- The exponent of the leading digit of a positive magnitude. -/
def leadingExponent (rank : Nat) : Int :=
  ((decimalDigits (Double.unitsOf rank * tenTo 324 / Double.one)).length : Int) - 325

/-- The decimals of one exponent that round to a rank, the preferred one first. -/
def candidate? (rank : Nat) (exponent : Int) : Option Decimal :=
  let units := Double.unitsOf rank
  let low := below units Double.one exponent
  let high := above units Double.one exponent
  match roundsTo rank low, roundsTo rank high with
  | true, true =>
      -- the middle of both decides
      let middle : Decimal := ⟨low.digits + high.digits, exponent⟩
      some (if middle.compareFraction (2 * units) Double.one == .gt then low else high)
  | true, false => some low
  | false, true => some high
  | false, false => none

/-- The magnitude of a rank itself, which has up to 1074 places. -/
def exact (rank : Nat) : Decimal := ⟨Double.unitsOf rank * Nat.pow 5 1074, -1074⟩

/-- Tries one digit more at a time, and falls back on the exact value. -/
def shortestFrom (rank : Nat) : Nat → Int → Decimal
  | 0, _ => exact rank
  | more + 1, exponent =>
      match candidate? rank exponent with
      | some d => normal d
      | none => shortestFrom rank more (exponent - 1)

/-- The shortest decimal of a positive rank. Seventeen digits always suffice. -/
def shortest (rank : Nat) : Decimal := shortestFrom rank 17 (leadingExponent rank)

def digitValue (c : Char) : Nat := c.toNat - '0'.toNat

def digitsValue (cs : List Char) : Nat :=
  cs.foldl (fun value c => 10 * value + digitValue c) 0

end Decimal

namespace Double

/-- The double nearest to an unsigned decimal text: digits with at most one point. -/
def ofDigits (negative : Bool) (cs : List Char) : Double :=
  let whole := cs.takeWhile (· != '.')
  let fraction := (cs.dropWhile (· != '.')).drop 1
  nearest negative (Decimal.digitsValue (whole ++ fraction) * one) (Decimal.tenTo fraction.length)

def signText (negative : Bool) : List Char := if negative then ['-'] else []

/-- The text of a number. Both zeros are written without a sign. -/
def text : Double → List Char
  | nan => ['N', 'a', 'N']
  | infinite negative => signText negative ++ "Infinity".toList
  | finite negative rank =>
      if rank.val = 0 then ['0'] else signText negative ++ (Decimal.shortest rank).text

end Double

end XPathQuery
