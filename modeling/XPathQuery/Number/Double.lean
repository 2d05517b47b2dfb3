/-!
Double-precision numbers with exact values. A finite number is a sign and a
rank: its place among the magnitudes in ascending order, which is also the
pattern of its low 63 bits. Magnitudes are counted in units of 2^-1074, the
least positive one, so every finite value is a whole number of units, and
rounding compares integers only.
-/
namespace XPathQuery

/-- How many magnitudes there are from one power of two to the next. -/
def binadeSize : Nat := 0x10000000000000

/-- The number of finite magnitudes; the next bit pattern stands for infinity. -/
def rankCount : Nat := 0x7FF0000000000000

/-- The bit that makes a number negative. -/
def signBit : Nat := 0x8000000000000000

inductive Double
  | nan
  | infinite (negative : Bool)
  | finite (negative : Bool) (rank : Fin rankCount)
deriving DecidableEq, Repr

namespace Double

def twoTo (exponent : Nat) : Nat := Nat.pow 2 exponent

/-- How many units make one. -/
def one : Nat := twoTo 1074

/-- The magnitude of a rank in units: the low 52 bits are a fraction, which a
leading bit completes in every binade but the lowest two. -/
def unitsOf (rank : Nat) : Nat :=
  if rank < binadeSize then rank
  else (binadeSize + rank % binadeSize) * twoTo (rank / binadeSize - 1)

/-- The quotient rounded to the nearest integer, a half to the even one. -/
def roundDiv (numerator denominator : Nat) : Nat :=
  let quotient := numerator / denominator
  let twice := 2 * (numerator % denominator)
  if twice < denominator then quotient
  else if denominator < twice then quotient + 1
  else if quotient % 2 = 0 then quotient
  else quotient + 1

/-- The rank nearest to a quotient of units; ranks from `rankCount` on overflow.
The shift leaves 53 bits before the point, and a carry past them moves on to the
first rank of the next binade by itself. -/
def nearestRank (numerator denominator : Nat) : Nat :=
  let quotient := numerator / denominator
  let shift := if quotient < 2 * binadeSize then 0 else quotient.log2 - 52
  shift * binadeSize + roundDiv numerator (denominator * twoTo shift)

def ofRank (negative : Bool) (rank : Nat) : Double :=
  if h : rank < rankCount then finite negative ⟨rank, h⟩ else infinite negative

/-- The double nearest to a signed quotient of units. -/
def nearest (negative : Bool) (numerator denominator : Nat) : Double :=
  ofRank negative (nearestRank numerator denominator)

def zero : Double := ofRank false 0

def ofNat (n : Nat) : Double := nearest false (n * one) 1

/-- The double with the given 64 bits. Every pattern above infinity is the one NaN. -/
def ofBits (bits : Nat) : Double :=
  let rank := bits % signBit
  if rank ≤ rankCount then ofRank (bits / signBit % 2 == 1) rank else nan

/-- The 64 bits of a number, none for NaN, whose bits carry no meaning. -/
def bits? : Double → Option Nat
  | nan => none
  | infinite negative => some ((if negative then signBit else 0) + rankCount)
  | finite negative rank => some ((if negative then signBit else 0) + rank)

/-- The signed value of a finite number in units. -/
def units (negative : Bool) (rank : Nat) : Int :=
  if negative then -(unitsOf rank : Int) else unitsOf rank

def isZero : Double → Bool
  | finite _ rank => rank.val == 0
  | _ => false

def isNaN : Double → Bool
  | nan => true
  | _ => false

/-- The place of a number on the line from minus to plus infinity, none for NaN.
Both zeros have place 0. -/
def place? : Double → Option Int
  | nan => none
  | infinite negative => some (if negative then -(rankCount : Int) else rankCount)
  | finite negative rank => some (if negative then -(rank.val : Int) else rank.val)

/-- Whether a relation holds between two places. It never does for NaN. -/
def related (relation : Int → Int → Bool) (x y : Double) : Bool :=
  match x.place?, y.place? with
  | some p, some q => relation p q
  | _, _ => false

def equal : Double → Double → Bool := related (fun p q => p == q)

def less : Double → Double → Bool := related (fun p q => p < q)

def lessOrEqual : Double → Double → Bool := related (fun p q => p ≤ q)

theorem equal_comm (x y : Double) : x.equal y = y.equal x := by
  unfold equal related
  cases x.place? with
  | none => cases y.place? <;> rfl
  | some p =>
    cases y.place? with
    | none => rfl
    | some q => exact BEq.comm

theorem twoTo_pos (exponent : Nat) : 0 < twoTo exponent :=
  Nat.pow_pos (by decide)

theorem unitsOf_zero : unitsOf 0 = 0 := rfl

theorem unitsOf_pos {rank : Nat} (h : 0 < rank) : 0 < unitsOf rank := by
  unfold unitsOf
  split
  · exact h
  · have hsize : 0 < binadeSize := by decide
    exact Nat.mul_pos (by omega) (twoTo_pos _)

end Double

end XPathQuery
