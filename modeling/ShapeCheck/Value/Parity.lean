import ShapeCheck.Text.Pattern
import ShapeCheck.Value

/-!
# Remainders by two

Whether the remainder of a value by two is zero.  For numbers this asks whether the
value denotes an even integer; a text or byte string is a pattern, and its remainder is
the pattern filled with the number two.
-/

namespace ShapeCheck

namespace Number

def isEvenRational (q : Rat) : Bool := q.den = 1 && q.num % 2 = 0

/-- Tells whether the whole part of half a decimal number needs more digits than
arithmetic keeps. -/
def halfIsTooLong : Number → Bool
  | decimal (.finite _ coefficient exponent) =>
    if exponent ≤ -(Nat.toDigits 10 coefficient).length then false
    else if Decimal.precision + 1 < (Nat.toDigits 10 coefficient).length + exponent then
      coefficient ≠ 0
    else
      Nat.pow 10 Decimal.precision * 2 ≤
        (if 0 ≤ exponent then coefficient * Nat.pow 10 exponent.toNat
         else coefficient / Nat.pow 10 (-exponent).toNat)
  | decimal (.infinity _) => true
  | _ => false

def isEven (n : Number) : Except Fault Bool :=
  if n.isComplex then .error .wrongType
  else if n.isSignaling || n.halfIsTooLong then .error .invalidDecimal
  else
    match n.extent? with
    | some (.rational q) => .ok (isEvenRational q)
    | _ => .ok false

end Number

namespace Value

def isEven (v : Value) : Except Fault Bool :=
  match v with
  | atom _ (.bytes bytes) | buffer _ bytes =>
    (Text.fillOne .bytes (bytes.map fun b => Char.ofNat b.toNat)).map fun _ => false
  | atom _ a =>
    match a.asText?, a.asNumber? with
    | some pattern, _ => (Text.fillOne .text pattern.toList).map fun _ => false
    | none, some n => n.isEven
    | none, none => .error .wrongType
  | _ => .error .wrongType

end Value

end ShapeCheck
