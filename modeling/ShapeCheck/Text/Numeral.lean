import ShapeCheck.Text.Digits

/-!
# Decimal numerals

Reading a numeral in decimal notation, with an optional sign, an optional fraction
and an optional exponent, into the integer it would be without its point and the
power of ten that puts the point back.
-/

namespace ShapeCheck.Text

def isBlank (c : Char) : Bool :=
  let code := c.toNat
  (9 ≤ code && code ≤ 13) || (28 ≤ code && code ≤ 32) || code = 133 || code = 160 ||
    code = 5760 || (8192 ≤ code && code ≤ 8202) || code = 8232 || code = 8233 ||
    code = 8239 || code = 8287 || code = 12288

/-- Removes blank space from both ends. -/
def trimBlank (cs : List Char) : List Char :=
  (((cs.dropWhile isBlank).reverse).dropWhile isBlank).reverse

/-- A spelled numeral without surrounding blank space and with ASCII digits. -/
def normalized (s : String) : List Char := (trimBlank s.toList).map asciiDigit

/-- The number that a list of decimal digits spells. -/
def digitsValue (cs : List Char) : Nat :=
  cs.foldl (fun n c => 10 * n + (c.toNat - 48)) 0

/-- Splits off a leading sign; `true` stands for a minus. -/
def splitSign : List Char → Bool × List Char
  | '-' :: rest => (true, rest)
  | '+' :: rest => (false, rest)
  | cs => (false, cs)

/-- Drops underscores that stand between two digits; any other underscore stays. -/
def dropGroupMarks : List Char → List Char
  | a :: '_' :: b :: rest =>
    if a.isDigit && b.isDigit then a :: dropGroupMarks (b :: rest)
    else a :: '_' :: dropGroupMarks (b :: rest)
  | a :: rest => a :: dropGroupMarks rest
  | [] => []
termination_by cs => cs.length

/-- A numeral read exactly: the value is `coefficient * 10 ^ exponent`, with a sign
that is kept also for zero. -/
structure Numeral where
  negative : Bool
  coefficient : Nat
  exponent : Int
  deriving DecidableEq

namespace Numeral

/-- Reads the exponent part, which is either absent or complete. -/
def exponent? : List Char → Option Int
  | [] => some 0
  | c :: rest =>
    if c = 'e' || c = 'E' then
      let (negative, digits) := splitSign rest
      if digits.isEmpty || !digits.all Char.isDigit then none
      else
        let n : Int := digitsValue digits
        some (if negative then -n else n)
    else none

/-- Reads an unsigned numeral: digits with an optional point among them, of which at
least one is present, and an optional exponent. -/
def unsigned? (cs : List Char) : Option (Nat × Int) :=
  let whole := cs.takeWhile Char.isDigit
  let afterWhole := cs.dropWhile Char.isDigit
  let (fraction, rest) := match afterWhole with
    | '.' :: more => (more.takeWhile Char.isDigit, more.dropWhile Char.isDigit)
    | more => ([], more)
  if whole.isEmpty && fraction.isEmpty then none
  else (exponent? rest).map fun e =>
    (digitsValue (whole ++ fraction), e - fraction.length)

def parse? (cs : List Char) : Option Numeral :=
  let (negative, body) := splitSign cs
  (unsigned? body).map fun (coefficient, exponent) => ⟨negative, coefficient, exponent⟩

end Numeral

/-- Reads a whole number: an optional sign and digits, which underscores may group. -/
def wholeNumber? (s : String) : Option Int :=
  let (negative, body) := splitSign (dropGroupMarks (normalized s))
  if body.isEmpty || !body.all Char.isDigit then none
  else
    let n : Int := digitsValue body
    some (if negative then -n else n)

end ShapeCheck.Text
