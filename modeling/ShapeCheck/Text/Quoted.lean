import ShapeCheck.Text.Printable

/-!
# Quoted text

The spelling of a text or a byte string inside a larger value: between single
quotes, or between double quotes when the content holds a single quote and no
double quote, with everything that would not show as itself escaped.
-/

namespace ShapeCheck.Text

/-- The lower-case hexadecimal digit of a number below sixteen. -/
def hexDigit (n : Nat) : Char :=
  if n < 10 then Char.ofNat (48 + n) else Char.ofNat (87 + n)

/-- The hexadecimal spelling of `n` with exactly `width` digits. -/
def hexPadded (width n : Nat) : String :=
  String.ofList ((List.range width).reverse.map fun i => hexDigit (n / Nat.pow 16 i % 16))

/-- The quote mark that surrounds a content. -/
def quoteMark (hasSingle hasDouble : Bool) : Char :=
  if hasSingle && !hasDouble then '"' else '\''

/-- The spelling of one character between the given quote marks. -/
def quotedChar (mark c : Char) : String :=
  if c = mark || c = '\\' then "\\" ++ c.toString
  else if c = '\n' then "\\n"
  else if c = '\r' then "\\r"
  else if c = '\t' then "\\t"
  else if isPrintable c then c.toString
  else if c.toNat < 256 then "\\x" ++ hexPadded 2 c.toNat
  else if c.toNat < 65536 then "\\u" ++ hexPadded 4 c.toNat
  else "\\U" ++ hexPadded 8 c.toNat

/-- A text between quote marks. -/
def quoted (s : String) : String :=
  let mark := quoteMark (s.toList.contains '\'') (s.toList.contains '"')
  mark.toString ++ String.join (s.toList.map (quotedChar mark)) ++ mark.toString

/-- The spelling of one byte between the given quote marks. -/
def quotedByte (mark : Char) (b : UInt8) : String :=
  let c := Char.ofNat b.toNat
  if c = mark || c = '\\' then "\\" ++ c.toString
  else if c = '\n' then "\\n"
  else if c = '\r' then "\\r"
  else if c = '\t' then "\\t"
  else if 32 ≤ b && b < 127 then c.toString
  else "\\x" ++ hexPadded 2 b.toNat

/-- A byte string between quote marks, after the letter that tells it from a text. -/
def quotedBytes (bytes : List UInt8) : String :=
  let mark := quoteMark (bytes.contains 39) (bytes.contains 34)
  "b" ++ mark.toString ++ String.join (bytes.map (quotedByte mark)) ++ mark.toString

/-- A byte string as hexadecimal digits. -/
def hexBytes (bytes : List UInt8) : String :=
  String.join (bytes.map fun b => hexPadded 2 b.toNat)

end ShapeCheck.Text
