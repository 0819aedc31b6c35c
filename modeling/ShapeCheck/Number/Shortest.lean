import ShapeCheck.Number.Binary64

/-!
# Shortest decimal text of a binary number

Among the decimal numerals that read back as a given binary number, the text uses
one with the fewest digits, and of those the one nearest to the number.  Everything
is decided by exact integer comparison: the reals that round to `m * 2 ^ e` form an
interval whose ends belong to it when `m` is even, and on each grid of `n` digits
only the two neighbours of the number itself need to be tried.

`FloatFormat` holds the decisions of the written form: where positional notation
ends, whether a whole number keeps a fraction, and how the special values are spelled.
-/

namespace ShapeCheck

namespace Binary64

/-- The quantities that decide which decimals read back as `m * 2 ^ e`, all in units
of a common positive factor: the number, the two ends of its interval, and whether
the ends belong to it.  A real `x` is compared by `x * unit`. -/
structure Window where
  value : Nat
  low : Nat
  high : Nat
  closed : Bool
  unit : Nat

/-- The interval of the reals that round to `m * 2 ^ e`, for a positive `m`. -/
def window (m : Nat) (e : Int) : Window :=
  let below := if m = Nat.pow 2 52 && minExponent < e then 1 else 2
  let scale := Nat.pow 2 (e - 2).toNat
  { value := 4 * m * scale
    low := (4 * m - below) * scale
    high := (4 * m + 2) * scale
    closed := m % 2 = 0
    unit := Nat.pow 2 (2 - e).toNat }

namespace Window

/-- The decimal `d * 10 ^ k` and a quantity of the window, over a common factor. -/
def scaled (w : Window) (d : Nat) (k : Int) (quantity : Nat) : Nat × Nat :=
  (d * w.unit * Nat.pow 10 k.toNat, quantity * Nat.pow 10 (-k).toNat)

/-- Tells whether `d * 10 ^ k` reads back as the number. -/
def holds (w : Window) (d : Nat) (k : Int) : Bool :=
  let (x, low) := w.scaled d k w.low
  let (_, high) := w.scaled d k w.high
  if w.closed then low ≤ x && x ≤ high else low < x && x < high

/-- The distance of `d * 10 ^ k` from the number. -/
def distance (w : Window) (d : Nat) (k : Int) : Nat :=
  let (x, value) := w.scaled d k w.value
  (x - value) + (value - x)

/-- The number of digits before the decimal point; zero and below count the zeros
that follow the point. -/
def position (w : Window) : Int :=
  (Nat.toDigits 10 (w.value * Nat.pow 10 400 / w.unit)).length - 400

/-- The number divided by `10 ^ k`, rounded down. -/
def quotient (w : Window) (k : Int) : Nat :=
  w.value * Nat.pow 10 (-k).toNat / (w.unit * Nat.pow 10 k.toNat)

/-- The decimal with `n` digits that reads back as the number and is nearest to it. -/
def candidate? (w : Window) (n : Nat) : Option (Nat × Int) :=
  let k := w.position - n
  let d := w.quotient k
  match w.holds d k, w.holds (d + 1) k with
  | true, false => some (d, k)
  | false, true => some (d + 1, k)
  | true, true =>
    if w.distance d k < w.distance (d + 1) k then some (d, k)
    else if w.distance (d + 1) k < w.distance d k then some (d + 1, k)
    else some (if d % 2 = 0 then (d, k) else (d + 1, k))
  | false, false => none

end Window

/-- The digits of the shortest decimal that reads back as `m * 2 ^ e`, with the number
of digits that stand before the decimal point. -/
def shortest (m : Nat) (e : Int) : List Char × Int :=
  let w := window m e
  let (d, k) := ((List.range 17).findSome? fun n => w.candidate? (n + 1)).getD (w.quotient 0, 0)
  let digits := Nat.toDigits 10 d
  let significant := (digits.reverse.dropWhile (· = '0')).reverse
  (significant, digits.length + k)

end Binary64

/-- How a binary number is written. -/
structure FloatFormat where
  /-- Positional notation is used from this position of the decimal point on. -/
  firstPosition : Int
  /-- Positional notation is used up to this position of the decimal point. -/
  lastPosition : Int
  /-- A whole number in positional notation is followed by a point and a zero. -/
  keepsFraction : Bool
  /-- The spelling of the value that is not a number. -/
  nan : String
  /-- The spelling of the positive infinity. -/
  infinity : String

namespace FloatFormat

/-- Text of a number: positional from `0.0001` below `10 ^ 16`. -/
def display : FloatFormat := ⟨-3, 16, true, "nan", "inf"⟩

/-- The parts of a complex number do not keep an empty fraction. -/
def part : FloatFormat := ⟨-3, 16, false, "nan", "inf"⟩

/-- The spelling of numbers in JSON text. -/
def json : FloatFormat := ⟨-3, 16, true, "NaN", "Infinity"⟩

/-- Writes an exponent of ten with its sign and at least two digits. -/
def exponentText (e : Int) : String :=
  let digits := Nat.repr e.natAbs
  (if e < 0 then "e-" else "e+") ++ (if digits.length < 2 then "0" ++ digits else digits)

/-- Places the decimal point in a list of significant digits. -/
def place (format : FloatFormat) (digits : List Char) (position : Int) : String :=
  let zeros (n : Int) := List.replicate n.toNat '0'
  if position < format.firstPosition || format.lastPosition < position then
    let fraction := digits.drop 1
    String.ofList (digits.take 1 ++ (if fraction.isEmpty then [] else '.' :: fraction)) ++
      exponentText (position - 1)
  else if position ≤ 0 then
    String.ofList ('0' :: '.' :: (zeros (-position) ++ digits))
  else if (digits.length : Int) ≤ position then
    String.ofList (digits ++ zeros (position - digits.length)) ++
      (if format.keepsFraction then ".0" else "")
  else
    String.ofList (digits.take position.toNat ++ '.' :: digits.drop position.toNat)

/-- The text of a number. -/
def write (format : FloatFormat) : Binary64 → String
  | .nan => format.nan
  | .infinity negative => (if negative then "-" else "") ++ format.infinity
  | .finite negative m e =>
    let (digits, position) := if m = 0 then (['0'], 1) else Binary64.shortest m e
    (if negative then "-" else "") ++ format.place digits position

end FloatFormat

/-- The text that `text ++ "j"` and a pair of parentheses make of a complex number. -/
def complexText (re im : Binary64) : String :=
  let write := FloatFormat.part.write
  if re.isZero && !re.isNegative then write im ++ "j"
  else
    let plus := if im.isNegative then "" else "+"
    "(" ++ write re ++ plus ++ write im ++ "j)"

end ShapeCheck
