import XPathQuery.Number.Double

/-!
Arithmetic on doubles. Each operation works out its exact result in units and
rounds once. Sums and remainders need no division; a product has units of
2^-2148 and a quotient is brought to units by multiplying its dividend.
-/
namespace XPathQuery.Double

def neg : Double → Double
  | nan => nan
  | infinite negative => infinite (!negative)
  | finite negative rank => finite (!negative) rank

/-- Zero is negative only as the sum of two negative zeros. -/
def add : Double → Double → Double
  | nan, _ => nan
  | _, nan => nan
  | infinite s, infinite t => if s = t then infinite s else nan
  | infinite s, finite .. => infinite s
  | finite .., infinite t => infinite t
  | finite s m, finite t n =>
      let sum := units s m + units t n
      if sum = 0 then ofRank (s && t) 0 else nearest (sum < 0) sum.natAbs 1

def sub (x y : Double) : Double := add x (neg y)

def mul : Double → Double → Double
  | nan, _ => nan
  | _, nan => nan
  | infinite s, infinite t => infinite (s != t)
  | infinite s, finite t n => if n.val = 0 then nan else infinite (s != t)
  | finite s m, infinite t => if m.val = 0 then nan else infinite (s != t)
  | finite s m, finite t n => nearest (s != t) (unitsOf m * unitsOf n) one

def div : Double → Double → Double
  | nan, _ => nan
  | _, nan => nan
  | infinite _, infinite _ => nan
  | infinite s, finite t _ => infinite (s != t)
  | finite s _, infinite t => ofRank (s != t) 0
  | finite s m, finite t n =>
      if n.val = 0 then
        if m.val = 0 then nan else infinite (s != t)
      else nearest (s != t) (unitsOf m * one) (unitsOf n)

/-- The remainder of the division that truncates, with the sign of the dividend. -/
def rem : Double → Double → Double
  | nan, _ => nan
  | _, nan => nan
  | infinite _, _ => nan
  | finite s m, infinite _ => finite s m
  | finite s m, finite _ n =>
      if n.val = 0 then nan else nearest s (unitsOf m % unitsOf n) 1

/-- The integer below or above a magnitude in units. -/
def wholeUnits (up : Bool) (magnitude : Nat) : Nat :=
  (if up then (magnitude + (one - 1)) / one else magnitude / one) * one

def floor : Double → Double
  | finite s m => nearest s (wholeUnits s (unitsOf m)) 1
  | x => x

def ceiling : Double → Double
  | finite s m => nearest s (wholeUnits (!s) (unitsOf m)) 1
  | x => x

def half : Double := nearest false one 2

/-- Rounding by the floor of the sum with one half. Numbers that are not finite
and zeros keep what they are. -/
def round (x : Double) : Double :=
  match x with
  | finite _ m => if m.val = 0 then x else floor (add x half)
  | _ => x

/-- The sum of a list from the left, started from negative zero. -/
def sum (xs : List Double) : Double := xs.foldl add (ofRank true 0)

end XPathQuery.Double
