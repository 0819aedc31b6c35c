/-!
# Mismatches

A mismatch tells why a value does not conform to a schema.  Four kinds wrap the
mismatch of a part, so that the tree follows the path taken through the value; the
other five are leaves.  The type of the values that a mismatch mentions is a
parameter.
-/

namespace ShapeCheck

/-- Why a value does not conform. -/
inductive Mismatch (α : Type) where
  /-- The value is not of the kind that the schema describes. -/
  | incorrectType (expected got : α)
  /-- The value differs from a literal. -/
  | incorrectValue (expected got : α)
  /-- No alternative of a union matched; one mismatch for each, in order. -/
  | unionNoMatch (errors : List (Mismatch α))
  /-- An element of an array does not conform. -/
  | arrayError (error : Mismatch α) (index : Int)
  /-- A value of a record does not conform. -/
  | recordError (error : Mismatch α) (key : α)
  /-- The value under a declared or covered key does not conform. -/
  | objectError (error : Mismatch α) (key : α)
  /-- A declared key is absent. -/
  | requiredKeyMissing (key : α)
  /-- A key is present that the shape neither declares nor covers. -/
  | illegalExtraKey (key : α)
  /-- A predicate rejected the value, with its message if it gave one. -/
  | checkerFailed (reason : Option String)

namespace Mismatch

/-- The name of the kind of a mismatch. -/
def kind {α : Type} : Mismatch α → String
  | incorrectType .. => "IncorrectType"
  | incorrectValue .. => "IncorrectValue"
  | unionNoMatch .. => "UnionNoMatch"
  | arrayError .. => "ArrayError"
  | recordError .. => "RecordError"
  | objectError .. => "ObjectError"
  | requiredKeyMissing .. => "ObjectRequiredKeyMissing"
  | illegalExtraKey .. => "ObjectIllegalExtraKey"
  | checkerFailed .. => "CheckerFailed"

/-- The names of all kinds. -/
def kinds : List String :=
  ["IncorrectType", "IncorrectValue", "UnionNoMatch", "ArrayError", "RecordError",
   "ObjectError", "ObjectRequiredKeyMissing", "ObjectIllegalExtraKey", "CheckerFailed"]

end Mismatch

end ShapeCheck
