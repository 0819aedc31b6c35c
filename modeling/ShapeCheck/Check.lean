import ShapeCheck.Check.Descent
import ShapeCheck.Check.Step

/-!
# Checks

`check` tells whether a value conforms to a schema, and if not, why.  Every step goes
down to schemas that are less deep, so as many steps as the schema is deep are enough.
-/

namespace ShapeCheck

variable {σ : Type}

/-- A check that goes down at most a number of steps. -/
def checkWithin (host : Host σ) : Nat → Value → Value → Run σ Outcome
  | 0 => fun _ _ => throw .wrongType
  | steps + 1 => Check.step host (checkWithin host steps)

/-- Checks a value against a schema. -/
def check (host : Host σ) (d v : Value) : Run σ Outcome :=
  checkWithin host (d.descent + 1) d v

/-- The answer of a callable to an argument. -/
def call (host : Host σ) (f v : Value) : Run σ Value :=
  Check.invoke host (check host) f v

end ShapeCheck
