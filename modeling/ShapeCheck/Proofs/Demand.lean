import ShapeCheck.Proofs.Runs

/-!
# What a schema asks for

A value that serves as a schema may be tagged, and then its form and its tag decide
together what it asks for; it may be a callable, a literal or a shape.  `Value.demand`
reads all of this off a value at once.

Main statement: one step of a check is determined by the demand of the schema
(`Check.step_eq_meet`), so that proofs about checks go by demands and never look at forms
and tags.
-/

namespace ShapeCheck

/-- What a value asks of another when it serves as its schema. -/
inductive Demand where
  | anything
  /-- A test that needs no look at the parts of the value. -/
  | test (accepts : Value → Bool)
  /-- Not to count as true, which the class of the value may decide. -/
  | nullish
  | checker (f : Family) (predicate : Value)
  | array (element : Value)
  | record (schema : Value)
  | optional (required optional : List (Value × Value))
  | union (schemas : List Value)
  /-- A tag that only makes sense with parts, on a form without parts. -/
  | unknown (tag : Tag)
  | predicate
  | literal (a : Atom)
  | shape

namespace Demand

/-- The demand of a form whose tag decides nothing by itself. -/
def ofForm (tag : Tag) : Form Value → Demand
  | .family f => test f.accepts
  | .checker f p => checker f p
  | .array element => array element
  | .record schema => record schema
  | .optional requiredEntries optionalEntries => optional requiredEntries optionalEntries
  | .union schemas => union schemas
  | .bare | .atomic => unknown tag

/-- The demand of a tagged schema. -/
def ofTagged (tag : Tag) (form : Form Value) : Demand :=
  match form, tag with
  | .union schemas, _ => union schemas
  | _, .any => anything
  | _, .void => test Value.isNull
  | _, .nullish => nullish
  | _, .boolean => test Value.isBool
  | _, _ => ofForm tag form

end Demand

namespace Value

/-- What a value asks of another when it serves as its schema. -/
def demand (d : Value) : Demand :=
  match d with
  | tagged _ tag form => .ofTagged tag form
  | atom _ a => .literal a
  | _ => if d.isCallable then .predicate else .shape

theorem isPrimitive_of_isObject {v : Value} (h : v.isObject = true) : v.isPrimitive = false := by
  rw [isObject, Bool.and_eq_true] at h
  simpa using h.1

end Value

namespace Check

open Run

variable {σ : Type}

/-- What it takes to meet a demand. -/
def meet (host : Host σ) (rec : Value → Value → Run σ Outcome) (d v : Value) :
    Demand → Run σ Outcome
  | .anything => pure none
  | .test accepts => pure (.ofBool (accepts v) (.incorrectType d v))
  | .nullish => do return .ofBool (!(← lift v.truth)) (.incorrectType d v)
  | .checker f p =>
    if f.accepts v then predicate host rec p v else pure (some (.incorrectType d v))
  | .array element =>
    match v with
    | .sequence _ _ items => elements rec element items
    | _ => pure (some (.incorrectType d v))
  | .record schema =>
    if v.isObject then values rec schema v else pure (some (.incorrectType d v))
  | .optional requiredEntries optionalEntries =>
    if v.isObject then optionalObject rec requiredEntries optionalEntries v
    else pure (some (.incorrectType d v))
  | .union schemas => alternatives rec schemas v
  | .unknown tag => do throw (.unknownTag (← lift (Value.ofTag tag).shown))
  | .predicate => predicate host rec d v
  | .literal l =>
    match v with
    | .atom _ a => literal a l (.incorrectValue d v)
    | _ => pure (some (.incorrectType d v))
  | .shape =>
    if v.isPrimitive then pure (some (.incorrectType d v)) else exactShape rec d v

theorem tagged_eq_meet (host : Host σ) (rec : Value → Value → Run σ Outcome) (d : Value)
    (tag : Tag) (form : Form Value) (v : Value) :
    tagged host rec d tag form v = meet host rec d v (.ofTagged tag form) := by
  cases form <;> cases tag <;> rfl

/-- One step of a check does what the demand of the schema takes. -/
theorem step_eq_meet (host : Host σ) (rec : Value → Value → Run σ Outcome) (d v : Value) :
    step host rec d v = meet host rec d v d.demand := by
  by_cases hcallable : d.isCallable
  · cases d with
    | tagged _ tag form => exact tagged_eq_meet host rec _ tag form v
    | atom => exact absurd hcallable Bool.false_ne_true
    | _ => simp only [step, Value.demand, hcallable, if_true, meet]
  · cases d with
    | tagged _ tag form => exact tagged_eq_meet host rec _ tag form v
    | atom => cases v <;> rfl
    | _ =>
      simp only [step, Value.demand, hcallable, Bool.false_eq_true, if_false, meet]
      cases v <;> rfl

end Check

end ShapeCheck
