import ShapeCheck.Schema.Build
import ShapeCheck.Value.Bytes

/-!
# Mismatches from named fields

A mismatch can be put together from the name of its kind and its fields.  Nested
mismatches have to be mismatches, an index has to be an integer or stand for one, and
the result of a predicate has to be false or a text.
-/

namespace ShapeCheck.Mismatch

/-- Drops a fraction that consists of zeros only. -/
def dropZeroFraction (cs : List Char) : List Char :=
  let whole := cs.takeWhile (· ≠ '.')
  match cs.drop whole.length with
  | '.' :: fraction => if fraction.all (· = '0') then whole else cs
  | _ => cs

/-- The index that a text spells: an integer, possibly with a fraction of zeros. -/
def indexOfText (s : String) : Option Int :=
  let (negative, body) := Text.splitSign (dropZeroFraction (Text.trimBlank s.toList))
  let digits := Text.dropGroupMarks body
  if digits.isEmpty || !digits.all Char.isDigit || Number.maxDigits < digits.length then none
  else
    let n : Int := Text.digitsValue digits
    some (if negative then -n else n)

/-- The index that a number stands for.  Other numbers than integers and decimals are
limited to the range of machine words. -/
def indexOfNumber (n : Number) : Option Int :=
  match n, n.extent? with
  | .complex .., _ => none
  | .int i _, _ => some i
  | .decimal _, some (.rational q) => if q.den = 1 then some q.num else none
  | _, some (.rational q) =>
    if q.den = 1 && q.num.natAbs < Nat.pow 2 63 then some q.num else none
  | _, _ => none

/-- The index that a value stands for. -/
def indexOf (v : Value) : Option Int :=
  match v with
  | .atom _ (.symbol (.flags _ _ bits)) => some bits
  | .atom _ (.bytes bs) | .buffer _ bs => (Text.ofUtf8? bs).bind indexOfText
  | .atom _ a =>
    match a.asText?, a.asNumber? with
    | some s, _ => indexOfText s
    | none, some n => indexOfNumber n
    | none, none => none
  | _ => none

/-- The reason that a value gives for a rejection: none for false, or a text. -/
def reasonOf (v : Value) : Option (Option String) :=
  if v.isHashable && Value.sameKey v (.bool false) then some none
  else v.spelledText?.map some

/-- A field. -/
def field (fields : List (String × Value)) (name : String) : Except Fault Value :=
  match fields.lookup name with
  | some v => .ok v
  | none => .error .invalidFields

/-- The mismatch that a value is. -/
def ofValue (v : Value) : Except Fault Problem :=
  match v with
  | .mismatch _ m => .ok m
  | _ => .error .invalidFields

/-- A field that holds a mismatch. -/
def nested (fields : List (String × Value)) : Except Fault Problem := do
  ofValue (← field fields "error")

/-- What was given, or the fault for fields that a mismatch cannot hold. -/
def orInvalid {α : Type} : Option α → Except Fault α
  | some x => .ok x
  | none => .error .invalidFields

/-- Puts a mismatch together from the name of its kind and its named fields. -/
def assemble (kind : String) (fields : List (String × Value)) : Except Fault Problem := do
  match kind with
  | "IncorrectType" => return .incorrectType (← field fields "expected") (← field fields "got")
  | "IncorrectValue" => return .incorrectValue (← field fields "expected") (← field fields "got")
  | "UnionNoMatch" =>
    return .unionNoMatch (← (← Schema.collectionField fields "errors").mapM ofValue)
  | "ArrayError" =>
    return .arrayError (← nested fields) (← orInvalid (indexOf (← field fields "index")))
  | "RecordError" => return .recordError (← nested fields) (← field fields "key")
  | "ObjectError" => return .objectError (← nested fields) (← field fields "key")
  | "ObjectRequiredKeyMissing" => return .requiredKeyMissing (← field fields "key")
  | "ObjectIllegalExtraKey" => return .illegalExtraKey (← field fields "key")
  | "CheckerFailed" =>
    return .checkerFailed (← orInvalid (reasonOf (← field fields "result")))
  | _ => throw .invalidFields

/-- The fault of rendering something that only claims to be a mismatch of some kind: it
has no fields if the kind is known, and otherwise the kind is refused. -/
def foreign (kind : Value) : Except Fault Problem := do
  match kind.asText? with
  | some s => if kinds.contains s then throw .missingAttribute
  | none => pure ()
  throw (.unknownKind (← kind.shown))

end ShapeCheck.Mismatch
