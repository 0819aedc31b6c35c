import ShapeCheck.Check

/-!
# Guards

A guard binds a schema to a name for reuse.  Its checks give the same outcomes as checks
against the schema; what it adds is that it reads the settings and may report a mismatch
to the log under its name.

`Guard.validate` is for callers that want the value itself or a refusal that tells why.
-/

namespace ShapeCheck

/-- A schema bound to a name. -/
structure Guard where
  name : String
  schema : Value

/-- What validation answers: the value that was given, or why it was refused together
with the wording. -/
inductive Validation where
  | accepted (v : Value)
  | refused (problem : Problem) (v : Value) (text : String)

namespace Guard

variable {σ : Type}

/-- The guard of a schema.  Without a name, or with an empty one, it goes by the text of
the schema. -/
def ofSchema (schema : Value) (name : Option String) : Except Fault Guard := do
  match name with
  | none | some "" => return ⟨← schema.shown, schema⟩
  | some name => return ⟨name, schema⟩

/-- A guard as a value. -/
def toValue (g : Guard) : Value := .guard 0 g.name g.schema

/-- The guard that a value is. -/
def ofValue? : Value → Option Guard
  | .guard _ name schema => some ⟨name, schema⟩
  | _ => none

/-- Checks a value against the schema of a guard. -/
def check (host : Host σ) (g : Guard) (v : Value) : Run σ Outcome :=
  Run.guarded g.name (ShapeCheck.check host g.schema v)

/-- Tells whether a guard accepts a value. -/
def isValid (host : Host σ) (g : Guard) (v : Value) : Run σ Bool := do
  return (← g.check host v).isNone

/-- Gives a value back if a guard accepts it, or else refuses it with the wording of the
mismatch. -/
def validate (host : Host σ) (g : Guard) (v : Value) : Run σ Validation := do
  match ← g.check host v with
  | none => return .accepted v
  | some problem => return .refused problem v (← Run.lift (problem.text ""))

/-- The values that a guard accepts, in order. -/
def filter (host : Host σ) (g : Guard) : List Value → Run σ (List Value)
  | [] => pure []
  | v :: rest => do
    let valid ← g.isValid host v
    let kept ← filter host g rest
    return if valid then v :: kept else kept

end Guard

end ShapeCheck
