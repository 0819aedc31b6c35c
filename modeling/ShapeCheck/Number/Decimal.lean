import ShapeCheck.Text.Numeral

/-!
# Decimal numbers

A decimal number keeps its coefficient and exponent as they were written, so that
`1.0` and `1.00` are equal numbers with different texts.  Besides finite numbers
there are infinities and two kinds of not-a-number: a quiet one and a signaling
one, which makes every comparison of numbers fail.
-/

namespace ShapeCheck

/-- A decimal number: `finite s c e` is `c * 10 ^ e`, negated if `s`. -/
inductive Decimal where
  | finite (negative : Bool) (coefficient : Nat) (exponent : Int)
  | infinity (negative : Bool)
  | nan (negative signaling : Bool) (payload : Nat)
  deriving DecidableEq

namespace Decimal

/-- The number of significant digits that arithmetic keeps. -/
def precision : Nat := 28

/-- Reads the digits that may follow the word for not-a-number. -/
def payload? (cs : List Char) : Option Nat :=
  if cs.all Char.isDigit then some (Text.digitsValue cs) else none

/-- Reads a number from text: a decimal numeral, an infinity or a not-a-number, in any
case, without regard to underscores and surrounding blank space. -/
def parse? (s : String) : Option Decimal :=
  let cs := (Text.normalized s).filter (· ≠ '_')
  let (negative, body) := Text.splitSign cs
  let lower := body.map Char.toLower
  if lower = "inf".toList || lower = "infinity".toList then some (.infinity negative)
  else if "nan".toList.isPrefixOf lower then
    (payload? (body.drop 3)).map (.nan negative false)
  else if "snan".toList.isPrefixOf lower then
    (payload? (body.drop 4)).map (.nan negative true)
  else (Text.Numeral.unsigned? body).map fun (coefficient, exponent) =>
    .finite negative coefficient exponent

/-- The text of a finite number without its sign: positional while the exponent is not
positive and at most six zeros follow the point, scientific otherwise. -/
def finiteText (coefficient : Nat) (exponent : Int) : String :=
  let digits := Nat.toDigits 10 coefficient
  let adjusted : Int := exponent + digits.length - 1
  if exponent ≤ 0 && -6 ≤ adjusted then
    if exponent = 0 then String.ofList digits
    else
      let position : Int := digits.length + exponent
      if 0 < position then
        String.ofList (digits.take position.toNat ++ '.' :: digits.drop position.toNat)
      else
        String.ofList ('0' :: '.' :: (List.replicate (-position).toNat '0' ++ digits))
  else
    let fraction := digits.drop 1
    String.ofList (digits.take 1 ++ (if fraction.isEmpty then [] else '.' :: fraction)) ++
      (if adjusted < 0 then "E-" else "E+") ++ Nat.repr adjusted.natAbs

/-- The text of a number. -/
def text : Decimal → String
  | finite negative c e => (if negative then "-" else "") ++ finiteText c e
  | infinity negative => (if negative then "-" else "") ++ "Infinity"
  | nan negative signaling payload =>
    (if negative then "-" else "") ++ (if signaling then "sNaN" else "NaN") ++
      (if payload = 0 then "" else Nat.repr payload)

/-- The rational that a finite number denotes. -/
def toRat? : Decimal → Option Rat
  | finite negative c e =>
    let signed : Int := if negative then -c else c
    some (if 0 ≤ e then ((signed * Nat.pow 10 e.toNat : Int) : Rat)
      else mkRat signed (Nat.pow 10 (-e).toNat))
  | infinity _ | nan _ _ _ => none

def isSignaling : Decimal → Bool
  | nan _ signaling _ => signaling
  | _ => false

def isZero : Decimal → Bool
  | finite _ c _ => c = 0
  | _ => false

/-- Rounds a coefficient to the kept precision, with ties to even. -/
def rounded (negative : Bool) (coefficient : Nat) (exponent : Int) : Decimal :=
  let excess := (Nat.toDigits 10 coefficient).length - precision
  if excess = 0 then .finite negative coefficient exponent
  else
    let unit := Nat.pow 10 excess
    let q := coefficient / unit
    let r := coefficient % unit
    let up := unit < 2 * r || (2 * r = unit && q % 2 = 1)
    let q := if up then q + 1 else q
    if q = Nat.pow 10 precision then
      .finite negative (Nat.pow 10 (precision - 1)) (exponent + excess + 1)
    else .finite negative q (exponent + excess)

/-- The number without its sign, in the kept precision. -/
def abs : Decimal → Decimal
  | finite _ c e => rounded false c e
  | infinity _ => infinity false
  | nan _ signaling payload => nan false signaling payload

end Decimal

end ShapeCheck
