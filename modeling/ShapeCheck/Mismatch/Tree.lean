import ShapeCheck.Json.Writer
import ShapeCheck.Schema.Outline

/-!
# Mismatches as data

A mismatch is laid out as a tree of plain mappings with its kind under `e` and its
fields under their names.  Nested mismatches are laid out in turn, the schema of a
mismatch of type is given by its outline, and every other value is left as it is.
-/

namespace ShapeCheck.Mismatch

/-- The layout of one node: its kind, then its fields. -/
def node (kind : String) (fields : List (String × Value)) : Value :=
  .dict (Value.fieldEntries (("e", .text kind) :: fields))

/-- The value that tells why a predicate rejected: false, or its message. -/
def reasonValue : Option String → Value
  | none => .bool false
  | some s => .text s

mutual

/-- The tree of a mismatch. -/
def tree : Problem → Except Fault Value
  | .incorrectType expected got => do
    return node "IncorrectType" [("expected", ← expected.outline), ("got", got)]
  | .incorrectValue expected got =>
    .ok (node "IncorrectValue" [("expected", expected), ("got", got)])
  | .unionNoMatch errors => do
    return node "UnionNoMatch" [("errors", .list (← trees errors))]
  | .arrayError error index => do
    return node "ArrayError" [("error", ← tree error), ("index", .int index)]
  | .recordError error key => do
    return node "RecordError" [("error", ← tree error), ("key", ← key.outlineKey)]
  | .objectError error key => do
    return node "ObjectError" [("error", ← tree error), ("key", ← key.outlineKey)]
  | .requiredKeyMissing key => do
    return node "ObjectRequiredKeyMissing" [("key", ← key.outlineKey)]
  | .illegalExtraKey key => do
    return node "ObjectIllegalExtraKey" [("key", ← key.outlineKey)]
  | .checkerFailed reason => .ok (node "CheckerFailed" [("result", reasonValue reason)])
termination_by structural m => m

/-- The trees of a list of mismatches. -/
def trees : List Problem → Except Fault (List Value)
  | [] => .ok []
  | m :: rest => do return (← tree m) :: (← trees rest)
termination_by structural ms => ms

end

/-- The tree of a mismatch as JSON text. -/
def json (o : Json.Options) (m : Problem) : Except Fault String := do
  Json.write o (← m.tree)

end ShapeCheck.Mismatch
