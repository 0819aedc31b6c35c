import ShapeCheck.Text.Numeral

/-!
# Binary floating-point numbers

A double-precision number is held as what it denotes: not a number, an infinity, or
a signed integer significand times a power of two.  Reading a numeral rounds the
exact quotient to the nearest such number, with ties to the even significand, so no
machine arithmetic takes part and every value can be reasoned about as a rational.
-/

namespace ShapeCheck

/-- A double-precision number: `finite s m e` is `m * 2 ^ e`, negated if `s`. -/
inductive Binary64 where
  | nan
  | infinity (negative : Bool)
  | finite (negative : Bool) (significand : Nat) (exponent : Int)
  deriving DecidableEq

namespace Binary64

/-- The least exponent, which zero and the subnormal numbers have. -/
def minExponent : Int := -1074

/-- The greatest exponent of a finite number. -/
def maxExponent : Int := 971

/-- A zero of the given sign. -/
def zero (negative : Bool) : Binary64 := .finite negative 0 minExponent

/-- The quotient rounded to the nearest integer, with ties to the even one. -/
def roundHalfEven (num den : Nat) : Nat :=
  let q := num / den
  let r := num % den
  if 2 * r < den then q
  else if den < 2 * r then q + 1
  else if q % 2 = 0 then q else q + 1

/-- The positive rational `num / den` divided by `2 ^ e`, as numerator and denominator. -/
def scaleDown (num den : Nat) (e : Int) : Nat × Nat :=
  if 0 ≤ e then (num, den * Nat.pow 2 e.toNat) else (num * Nat.pow 2 (-e).toNat, den)

/-- The exponent with which `num / den` has a significand of 53 bits, or the least
exponent if that is greater. -/
def exponentFor (num den : Nat) : Int :=
  let guess : Int := (num.log2 : Int) - den.log2 - 52
  let (n, d) := scaleDown num den guess
  max minExponent (if n < d * Nat.pow 2 52 then guess - 1 else guess)

/-- The number nearest to `num / den`, with ties to the even significand. -/
def nearest (negative : Bool) (num den : Nat) : Binary64 :=
  if num = 0 then zero negative
  else
    let e := exponentFor num den
    let (n, d) := scaleDown num den e
    let m := roundHalfEven n d
    let (m, e) := if m = Nat.pow 2 53 then (Nat.pow 2 52, e + 1) else (m, e)
    if maxExponent < e then .infinity negative else .finite negative m e

/-- The number nearest to `coefficient * 10 ^ exponent`.  Exponents far outside the
range are decided by the count of digits alone. -/
def ofScientific (negative : Bool) (coefficient : Nat) (exponent : Int) : Binary64 :=
  if coefficient = 0 then zero negative
  else
    let size : Int := (Nat.toDigits 10 coefficient).length + exponent
    if 400 < size then .infinity negative
    else if size < -400 then zero negative
    else if 0 ≤ exponent then nearest negative (coefficient * Nat.pow 10 exponent.toNat) 1
    else nearest negative coefficient (Nat.pow 10 (-exponent).toNat)

/-- The number nearest to an integer. -/
def ofInt (i : Int) : Binary64 := nearest (i < 0) i.natAbs 1

/-- Reads a number from text: a decimal numeral, an infinity or `nan`, in any case. -/
def parse? (s : String) : Option Binary64 :=
  let cs := Text.dropGroupMarks (Text.normalized s)
  let (negative, body) := Text.splitSign cs
  let word := String.ofList (body.map Char.toLower)
  if word = "inf" || word = "infinity" then some (.infinity negative)
  else if word = "nan" then some .nan
  else (Text.Numeral.unsigned? body).map fun (coefficient, exponent) =>
    ofScientific negative coefficient exponent

/-- The rational that a finite number denotes. -/
def toRat? : Binary64 → Option Rat
  | nan | infinity _ => none
  | finite negative m e =>
    let signed : Int := if negative then -m else m
    some (if 0 ≤ e then ((signed * Nat.pow 2 e.toNat : Int) : Rat)
      else mkRat signed (Nat.pow 2 (-e).toNat))

def isZero : Binary64 → Bool
  | finite _ m _ => m = 0
  | _ => false

/-- The number without its sign. -/
def abs : Binary64 → Binary64
  | nan => nan
  | infinity _ => infinity false
  | finite _ m e => finite false m e

def isNegative : Binary64 → Bool
  | nan => false
  | infinity negative => negative
  | finite negative _ _ => negative

end Binary64

end ShapeCheck
