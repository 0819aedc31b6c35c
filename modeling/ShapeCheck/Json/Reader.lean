import ShapeCheck.Value.Entries

/-!
# Values from JSON text

Reads JSON text by the standard grammar.  Arrays become lists and objects become plain
mappings with their entries in the order of the text; of entries under one key the last
counts.  A number without fraction and exponent becomes an integer of any size, any other
number the nearest binary one.  Escaped UTF-16 units have to form whole characters.
-/

namespace ShapeCheck.Json.Reader

def isSpace (c : Char) : Bool := c = ' ' || c = '\n' || c = '\r' || c = '\t'

/-- Drops blank space between tokens. -/
def skipSpace (cs : List Char) : List Char := cs.dropWhile isSpace

/-- The value of a hexadecimal digit. -/
def hexValue? (c : Char) : Option Nat :=
  if c.isDigit then some (c.toNat - 48)
  else if 'a' ≤ c && c ≤ 'f' then some (c.toNat - 87)
  else if 'A' ≤ c && c ≤ 'F' then some (c.toNat - 55)
  else none

/-- Reads the four hexadecimal digits of a UTF-16 unit. -/
def unit? : List Char → Option (Nat × List Char)
  | a :: b :: c :: d :: rest => do
    return (4096 * (← hexValue? a) + 256 * (← hexValue? b) + 16 * (← hexValue? c) +
      (← hexValue? d), rest)
  | _ => none

def isHighHalf (unit : Nat) : Bool := 55296 ≤ unit && unit < 56320

def isLowHalf (unit : Nat) : Bool := 56320 ≤ unit && unit < 57344

/-- Reads an escaped character after its backslash and the letter `u`. -/
def escapedUnits? (cs : List Char) : Option (Char × List Char) := do
  let (unit, rest) ← unit? cs
  if isHighHalf unit then
    match rest with
    | '\\' :: 'u' :: more =>
      let (low, more) ← unit? more
      if isLowHalf low then
        return (Char.ofNat (65536 + 1024 * (unit - 55296) + (low - 56320)), more)
      else none
    | _ => none
  else if isLowHalf unit then none
  else return (Char.ofNat unit, rest)

/-- The character that a letter after a backslash stands for. -/
def escaped? (c : Char) : Option Char :=
  if c = '"' || c = '\\' || c = '/' then some c
  else if c = 'b' then some (Char.ofNat 8)
  else if c = 'f' then some (Char.ofNat 12)
  else if c = 'n' then some '\n'
  else if c = 'r' then some '\r'
  else if c = 't' then some '\t'
  else none

/-- Reads one character of a text, which may be escaped. -/
def character? : List Char → Option (Char × List Char)
  | [] => none
  | '\\' :: 'u' :: rest => escapedUnits? rest
  | '\\' :: c :: rest => (escaped? c).map fun d => (d, rest)
  | c :: rest => if c = '\\' || c = '"' || c.toNat < 32 then none else some (c, rest)

/-- Reads a text after its opening quote, in at most a number of steps. -/
def content? : Nat → List Char → Option (List Char × List Char)
  | 0, _ => none
  | _ + 1, '"' :: rest => some ([], rest)
  | steps + 1, cs => do
    let (c, rest) ← character? cs
    let (more, rest) ← content? steps rest
    return (c :: more, rest)

/-- Reads a text after its opening quote. -/
def text? (cs : List Char) : Option (String × List Char) :=
  (content? (cs.length + 1) cs).map fun (content, rest) => (String.ofList content, rest)

/-- Reads the digits before the point: no zero may lead. -/
def whole? (cs : List Char) : Option (List Char × List Char) :=
  match cs.takeWhile Char.isDigit with
  | [] => none
  | '0' :: _ :: _ => none
  | digits => some (digits, cs.dropWhile Char.isDigit)

/-- Reads the digits after a point, if there is one. -/
def fraction? : List Char → Option (Option (List Char) × List Char)
  | '.' :: rest =>
    match rest.takeWhile Char.isDigit with
    | [] => none
    | digits => some (some digits, rest.dropWhile Char.isDigit)
  | cs => some (none, cs)

/-- Reads an exponent, if there is one. -/
def exponent? : List Char → Option (Option Int × List Char)
  | c :: rest =>
    if c = 'e' || c = 'E' then
      let (negative, body) := Text.splitSign rest
      match body.takeWhile Char.isDigit with
      | [] => none
      | digits =>
        let n : Int := Text.digitsValue digits
        some (some (if negative then -n else n), body.dropWhile Char.isDigit)
    else some (none, c :: rest)
  | [] => some (none, [])

def number? (cs : List Char) : Option (Value × List Char) := do
  let (negative, body) := match cs with
    | '-' :: rest => (true, rest)
    | cs => (false, cs)
  let (whole, rest) ← whole? body
  let (fraction, rest) ← fraction? rest
  let (exponent, rest) ← exponent? rest
  match fraction, exponent with
  | none, none =>
    let n : Int := Text.digitsValue whole
    return (.int (if negative then -n else n), rest)
  | _, _ =>
    let fraction := fraction.getD []
    let x := Binary64.ofScientific negative (Text.digitsValue (whole ++ fraction))
      (exponent.getD 0 - fraction.length)
    return (.atom 0 (.number (.binary x)), rest)

def word? (word : List Char) (v : Value) (cs : List Char) : Option (Value × List Char) :=
  if word.isPrefixOf cs then some (v, cs.drop word.length) else none

def scalar? (cs : List Char) : Option (Value × List Char) :=
  match cs with
  | '"' :: rest => (text? rest).map fun (s, rest) => (.text s, rest)
  | 'n' :: _ => word? "null".toList .null cs
  | 't' :: _ => word? "true".toList (.bool true) cs
  | 'f' :: _ => word? "false".toList (.bool false) cs
  | cs => number? cs

/-- Reads the key of an entry and the colon after it. -/
def key? (cs : List Char) : Option (String × List Char) :=
  match skipSpace cs with
  | '"' :: rest => do
    let (key, rest) ← text? rest
    match skipSpace rest with
    | ':' :: rest => return (key, rest)
    | _ => none
  | _ => none

mutual

/-- Reads a value, in at most a number of steps. -/
def value? : Nat → List Char → Option (Value × List Char)
  | 0, _ => none
  | steps + 1, cs =>
    match skipSpace cs with
    | '[' :: rest =>
      match skipSpace rest with
      | ']' :: rest => some (.list [], rest)
      | rest => (items? steps rest).map fun (items, rest) => (.list items, rest)
    | '\x7b' :: rest =>
      match skipSpace rest with
      | '\x7d' :: rest => some (.dict [], rest)
      | rest => (entries? steps rest).map fun (entries, rest) =>
          (.dict (Value.collectEntries entries), rest)
    | rest => scalar? rest

/-- Reads the items of an array up to its closing bracket. -/
def items? : Nat → List Char → Option (List Value × List Char)
  | 0, _ => none
  | steps + 1, cs => do
    let (v, rest) ← value? steps cs
    match skipSpace rest with
    | ',' :: rest => do
      let (more, rest) ← items? steps rest
      return (v :: more, rest)
    | ']' :: rest => return ([v], rest)
    | _ => none

/-- Reads the entries of an object up to its closing brace. -/
def entries? : Nat → List Char → Option (List (Value × Value) × List Char)
  | 0, _ => none
  | steps + 1, cs => do
    let (key, rest) ← key? cs
    let (v, rest) ← value? steps rest
    match skipSpace rest with
    | ',' :: rest => do
      let (more, rest) ← entries? steps rest
      return ((.text key, v) :: more, rest)
    | '\x7d' :: rest => return ([(.text key, v)], rest)
    | _ => none

end

end ShapeCheck.Json.Reader

namespace ShapeCheck.Json

def read? (s : String) : Option Value :=
  match Reader.value? (2 * s.length + 2) s.toList with
  | some (v, rest) => if (Reader.skipSpace rest).isEmpty then some v else none
  | none => none

end ShapeCheck.Json
