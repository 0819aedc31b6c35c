import ShapeCheck.Fault
import ShapeCheck.Number.Shortest
import ShapeCheck.Number.Decimal

/-!
# Numbers

The numbers that values are made of: integers, binary and decimal floating-point
numbers, fractions and complex numbers.  Numbers of different kinds are compared by
the exact value that they denote, never by rounding one to the kind of the other.

`Number.extent` is that value: a rational, an infinity or nothing at all.  Only a
signaling decimal refuses comparison, and a complex number that is not real is equal
to no other kind.
-/

namespace ShapeCheck

/-- What a real number denotes. -/
inductive Extent where
  | undefined
  | infinity (negative : Bool)
  | rational (q : Rat)
  deriving DecidableEq

/-- The order of two extents that are both defined. -/
def Extent.compare : Extent → Extent → Ordering
  | .infinity s, .infinity t => if s = t then .eq else if s then .lt else .gt
  | .infinity s, _ => if s then .lt else .gt
  | _, .infinity t => if t then .gt else .lt
  | .rational p, .rational q => if p < q then .lt else if p = q then .eq else .gt
  | _, _ => .eq

/-- A number.  `derived` marks integers of a type that extends the integers. -/
inductive Number where
  | int (value : Int) (derived : Bool)
  | binary (x : Binary64)
  | decimal (d : Decimal)
  | fraction (q : Rat)
  | complex (re im : Binary64)
  deriving DecidableEq

namespace Binary64

/-- What a binary number denotes. -/
def extent : Binary64 → Extent
  | nan => .undefined
  | infinity negative => .infinity negative
  | x@(finite ..) => (x.toRat?.map Extent.rational).getD .undefined

/-- Numeric equality: zeros of both signs are equal, and nothing equals a value that
is not a number. -/
def equal (x y : Binary64) : Bool :=
  x.extent = y.extent && x.extent ≠ .undefined

end Binary64

namespace Decimal

/-- What a decimal number denotes. -/
def extent : Decimal → Extent
  | nan .. => .undefined
  | infinity negative => .infinity negative
  | d@(finite ..) => (d.toRat?.map Extent.rational).getD .undefined

end Decimal

namespace Number

/-- What a number denotes on the real line, if it lies there. -/
def extent? : Number → Option Extent
  | int i _ => some (.rational i)
  | binary x => some x.extent
  | decimal d => some d.extent
  | fraction q => some (.rational q)
  | complex re im => if im.isZero then some re.extent else none

def isSignaling : Number → Bool
  | decimal d => d.isSignaling
  | _ => false

def isNaN : Number → Bool
  | binary x => x = .nan
  | _ => false

def isZero : Number → Bool
  | int i _ => i = 0
  | binary x => x.isZero
  | decimal d => d.isZero
  | fraction q => q = 0
  | complex re im => re.isZero && im.isZero

/-- Numeric equality, exact across all kinds.  Comparing a signaling decimal with
another real number has no answer. -/
def equal (a b : Number) : Except Fault Bool :=
  match a, b with
  | complex re im, complex re' im' => .ok (re.equal re' && im.equal im')
  | a, b =>
    match a.extent?, b.extent? with
    | some x, some y =>
      if a.isSignaling || b.isSignaling then .error .invalidDecimal
      else .ok (x = y && x ≠ .undefined)
    | _, _ => .ok false

def isDecimal : Number → Bool
  | decimal _ => true
  | _ => false

def isComplex : Number → Bool
  | complex .. => true
  | _ => false

/-- Numeric order: complex numbers have none, a decimal refuses to be ordered with a
value that is not a number, and a binary one answers that they are not ordered. -/
def order (a b : Number) : Except Fault (Option Ordering) :=
  if a.isComplex || b.isComplex then .error .wrongType
  else
    match a.extent?, b.extent? with
    | some x, some y =>
      if x = .undefined || y = .undefined then
        if a.isDecimal || b.isDecimal then .error .invalidDecimal else .ok none
      else .ok (some (Extent.compare x y))
    | _, _ => .error .wrongType

/-- The greatest number of digits that an integer may have to be printed. -/
def maxDigits : Nat := 4300

/-- The decimal text of an integer, unless it has too many digits. -/
def intText (i : Int) : Except Fault String :=
  if i.natAbs < Nat.pow 10 maxDigits then .ok ((if i < 0 then "-" else "") ++ Nat.repr i.natAbs)
  else .error .digitLimit

/-- The text of a fraction: the denominator is left out when it is one. -/
def fractionText (q : Rat) : Except Fault String := do
  let num ← intText q.num
  if q.den = 1 then return num
  else return num ++ "/" ++ (← intText q.den)

/-- The plain text of a number. -/
def text : Number → Except Fault String
  | int i _ => intText i
  | binary x => .ok (FloatFormat.display.write x)
  | decimal d => .ok d.text
  | fraction q => fractionText q
  | complex re im => .ok (complexText re im)

/-- The text of a number inside a larger value, which tells decimals and fractions
from the other kinds. -/
def shown : Number → Except Fault String
  | decimal d => .ok ("Decimal('" ++ d.text ++ "')")
  | fraction q => do
    return "Fraction(" ++ (← intText q.num) ++ ", " ++ (← intText q.den) ++ ")"
  | n => n.text

end Number

end ShapeCheck
