import ShapeCheck.Mismatch.Listing
import ShapeCheck.Schema.Build

/-!
# Calling what is always there

What the native callables and types answer to one argument, and the operations bound to
ranges, bags and buffers.  A type that is called makes a value of itself from its
argument, if it can.
-/

namespace ShapeCheck

namespace Value

/-- A rational without its fraction. -/
def truncated (q : Rat) : Int := q.num.tdiv q.den

/-- The fault for a whole number that is spelled with too many digits. -/
def tooManyDigits (count : Nat) : Fault :=
  .badValue ("Exceeds the limit (4300 digits) for integer string conversion: value has " ++
    Nat.repr count ++ " digits; use sys.set_int_max_str_digits() to increase the limit")

/-- The whole number that a text spells. -/
def wholeOfText (s : String) : Except Fault Int :=
  match Text.wholeNumber? s with
  | none => .error .badNumeral
  | some i =>
    let count := ((Text.normalized s).filter Char.isDigit).length
    if Number.maxDigits < count then .error (tooManyDigits count) else .ok i

/-- The text of bytes that are all ASCII; other bytes spell no numeral. -/
def asciiText (bytes : List UInt8) : String :=
  String.ofList (bytes.map fun b => if b < 128 then Char.ofNat b.toNat else '?')

/-- The whole number that a real number becomes when its fraction is cut off. -/
def wholeOfNumber (n : Number) : Except Fault Int :=
  match n with
  | .int i _ => .ok i
  | .fraction q => .ok (truncated q)
  | .complex .. => .error .wrongType
  | .binary _ =>
    match n.extent? with
    | some (.rational q) => .ok (truncated q)
    | some (.infinity _) => .error .overflow
    | _ => .error (.badValue "cannot convert float NaN to integer")
  | .decimal _ =>
    match n.extent? with
    | some (.rational q) => .ok (truncated q)
    | some (.infinity _) => .error .overflow
    | _ => .error (.badValue "cannot convert NaN to integer")

/-- The whole number that a value stands for. -/
def toWhole (v : Value) : Except Fault Int :=
  match v with
  | atom _ (.bytes bytes) | buffer _ bytes => wholeOfText (asciiText bytes)
  | atom _ a =>
    match a.asText?, a.asNumber? with
    | some s, _ => wholeOfText s
    | none, some n => wholeOfNumber n
    | none, none => .error .wrongType
  | _ => .error .wrongType

/-- The fault for a text that spells no binary number. -/
def notBinary (v : Value) : Except Fault Binary64 := do
  throw (.badValue ("could not convert string to float: " ++ (← v.shown)))

/-- A finite binary number, or the fault for one that is too large. -/
def finiteOr (x : Binary64) : Except Fault Binary64 :=
  match x with
  | .infinity _ => .error .overflow
  | x => .ok x

/-- The binary number nearest to a real number. -/
def binaryOfNumber (n : Number) : Except Fault Binary64 :=
  match n with
  | .int i _ => finiteOr (Binary64.ofInt i)
  | .binary x => .ok x
  | .fraction q => finiteOr (Binary64.nearest (q < 0) q.num.natAbs q.den)
  | .complex .. => .error .wrongType
  | .decimal (.finite negative coefficient exponent) =>
    .ok (Binary64.ofScientific negative coefficient exponent)
  | .decimal (.infinity negative) => .ok (.infinity negative)
  | .decimal (.nan _ signaling _) =>
    if signaling then .error (.badValue "cannot convert signaling NaN to float") else .ok .nan

/-- The binary number that a value stands for. -/
def toBinary (v : Value) : Except Fault Binary64 :=
  match v with
  | atom _ (.bytes bytes) | buffer _ bytes =>
    match Binary64.parse? (asciiText bytes) with
    | some x => .ok x
    | none => v.notBinary
  | atom _ a =>
    match a.asText?, a.asNumber? with
    | some s, _ =>
      match Binary64.parse? s with
      | some x => .ok x
      | none => v.notBinary
    | none, some n => binaryOfNumber n
    | none, none => .error .wrongType
  | _ => .error .wrongType

/-- The distance of a point of the plane from the origin, cut off to whole multiples of
a fine unit before it is rounded. -/
def distance (re im : Rat) : Binary64 :=
  let den := re.den * im.den
  let a := (re * den).num.natAbs
  let b := (im * den).num.natAbs
  .nearest false (Nat.sqrt ((a * a + b * b) * Nat.pow 4 128)) (den * Nat.pow 2 128)

/-- The size of a number: without its sign, or its distance from zero. -/
def magnitude (n : Number) : Except Fault Number :=
  match n with
  | .int i _ => .ok (.int i.natAbs false)
  | .binary x => .ok (.binary x.abs)
  | .decimal d => if d.isSignaling then .error .invalidDecimal else .ok (.decimal d.abs)
  | .fraction q => .ok (.fraction (if q < 0 then -q else q))
  | .complex re im =>
    match re.extent, im.extent with
    | .infinity _, _ | _, .infinity _ => .ok (.binary (.infinity false))
    | .rational p, .rational q => (finiteOr (distance p q)).map .binary
    | _, _ => .ok (.binary .nan)

/-- The bytes that a buffer is filled with: as many zeros as an integer says, or bytes
given one by one. -/
def toBytes (v : Value) : Except Fault (List UInt8) :=
  match v with
  | atom _ (.bytes bytes) | buffer _ bytes => .ok bytes
  | atom _ a =>
    match a.asInt? with
    | some i =>
      if i < 0 then .error (.badValue "negative count")
      else if Nat.pow 2 20 < i then .error .overflow
      else .ok (List.replicate i.toNat 0)
    | none => .error .wrongType
  | v => do (← v.elements).mapM byte

/-- Elements without those that are found earlier. -/
def distinct (items : List Value) : List Value :=
  items.foldl (fun kept v => if kept.any (sameKey · v) then kept else kept ++ [v]) []

/-- The elements of a value as members of a set. -/
def toMembers (v : Value) : Except Fault (List Value) := do
  let items ← v.elements
  if items.all isHashable then return distinct items else throw .wrongType

/-- The greatest number of elements that can be counted. -/
def maxLength : Nat := Nat.pow 2 63 - 1

/-- The number of elements of a value, unless there are too many to count. -/
def countedLength (v : Value) : Except Fault Nat := do
  let n ← v.length
  if maxLength < n then throw .overflow else return n

end Value

namespace Native

open Value

/-- What a native callable or type answers to an argument. -/
def apply (n : Native) (v : Value) : Except Fault Value :=
  match n with
  | bool => v.truth.map .bool
  | str => v.plain.map .text
  | repr => v.shown.map .text
  | int => v.toWhole.map .int
  | float => v.toBinary.map fun x => .atom 0 (.number (.binary x))
  | len => v.countedLength.map fun (n : Nat) => .int n
  | callable => .ok (.bool v.isCallable)
  | abs =>
    match v with
    | .atom _ a =>
      match a.asNumber? with
      | some n => (magnitude n).map fun n => .atom 0 (.number n)
      | none => .error .wrongType
    | _ => .error .wrongType
  | all => do return .bool (← (← v.elements).allM Value.truth)
  | any => do return .bool (← (← v.elements).anyM Value.truth)
  | list => v.elements.map .list
  | dict => v.entriesOf.map fun entries => .dict (collectEntries entries)
  | set => v.toMembers.map (.bag 0 .set)
  | frozenset => v.toMembers.map (.bag 0 .frozenset)
  | deque => v.elements.map (.bag 0 .deque)
  | bytearray => v.toBytes.map (.buffer 0)
  | range =>
    match v with
    | .atom _ a =>
      match a.asInt? with
      | some i => .ok (.range 0 0 i 1)
      | none => .error .wrongType
    | _ => .error .wrongType
  | namespaceType => .error .wrongType
  | otherType name _ => if name = "type" then .ok (.native (typeOf v)) else .error .wrongType

end Native

namespace Value

/-- The position of the first element that is a value, by identity or equality, counted
from `start`. -/
def indexIn (v : Value) (start : Nat) : List Value → Except Fault (Option Nat)
  | [] => .ok none
  | item :: rest => do
    if ← orIdentical item v (equal item v) then return some start
    else indexIn v (start + 1) rest

/-- What a common operation answers to an argument.  Most of the others that come with a
value take no argument that is given alone. -/
def applyMethod (self : Value) (name : String) (v : Value) : Except Fault Value :=
  if name = "__eq__" then (self.equal v).map bool
  else if name = "__subclasshook__" then .ok null
  else match self with
  | bag .. | buffer .. | range .. =>
    if name = "__contains__" then (self.contains v).map bool
    else if name = "add" then
      if v.isHashable then .ok null else .error .wrongType
    else if name = "append" then
      match self with
      | buffer .. => v.byte.map fun _ => null
      | _ => .ok null
    else if name = "count" then do
      return int (← (← self.elements).filterM fun item => orIdentical item v (equal item v)).length
    else if name = "index" then do
      match ← indexIn v 0 (← self.elements) with
      | some i => return int i
      | none => throw (.badValue ((← v.shown) ++ " is not in " ++ self.typeName))
    else .error .wrongType
  | _ => .error .wrongType

end Value

end ShapeCheck
