/-!
# Faults

A check answers with a verdict.  A fault is what keeps an operation from answering
at all: a schema that was put together wrongly, a value of a kind the operation does
not take, a number whose digits are too many to print, or a failure inside a
predicate or a computed attribute of the caller.

Every cause is one constructor, and `Fault.message` is the only place that holds
wording.
-/

namespace ShapeCheck

/-- The cause that stopped an operation. -/
inductive Fault where
  /-- A required mapping declares the wildcard key. -/
  | wildcardRequired
  /-- A tagged schema without parts carries a tag that only makes sense with parts. -/
  | unknownTag (shown : String)
  /-- A rendered object is not a mismatch of any known kind. -/
  | unknownKind (shown : String)
  /-- A mapping key has no JSON spelling. -/
  | keyNotEncodable (typeName : String)
  /-- A value has no JSON spelling and no fallback was given. -/
  | notEncodable (typeName : String)
  /-- A number has no JSON spelling because it is infinite or not a number. -/
  | outOfRange
  /-- An integer has too many digits to be printed. -/
  | digitLimit
  /-- A schema, mismatch or settings record was given fields that it cannot hold. -/
  | invalidFields
  /-- An operation met a value of a kind that it does not take. -/
  | wrongType
  /-- A value has no attribute of the requested name. -/
  | missingAttribute
  /-- A mapping has no entry for a key, shown as text. -/
  | missingKey (shown : String)
  /-- A position lies outside a sequence. -/
  | badPosition
  /-- A result is too large for its number type. -/
  | overflow
  /-- A decimal operation has no defined result. -/
  | invalidDecimal
  /-- An entry given to a mapping is not a pair. -/
  | notAPair
  /-- A text is not the numeral that was asked for. -/
  | badNumeral
  /-- A value lies outside the domain of an operation, with the reason. -/
  | badValue (reason : String)
  /-- A predicate or computed attribute of the caller failed by itself. -/
  | raised (kind text : String)
  deriving DecidableEq

namespace Fault

/-- The wording of a fault, for the causes that have a fixed one. -/
def message : Fault → Option String
  | wildcardRequired =>
    some "The required mapping may not contain a [DefaultKey]. Please move it to the optional one."
  | unknownTag shown => some ("Unknown descriptor tag: " ++ shown)
  | unknownKind shown => some ("Unknown error kind: " ++ shown)
  | keyNotEncodable typeName =>
    some ("keys must be str, int, float, bool or None, not " ++ typeName)
  | notEncodable typeName =>
    some ("Object of type " ++ typeName ++ " is not JSON serializable")
  | outOfRange => some "Out of range float values are not JSON compliant"
  | digitLimit =>
    some ("Exceeds the limit (4300 digits) for integer string conversion; " ++
      "use sys.set_int_max_str_digits() to increase the limit")
  | missingKey shown => some shown
  | badValue reason => some reason
  | raised _ text => some text
  | invalidFields | wrongType | missingAttribute | badPosition | overflow
  | invalidDecimal | notAPair | badNumeral => none

end Fault

end ShapeCheck
