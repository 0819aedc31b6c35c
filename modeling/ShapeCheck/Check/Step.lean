import ShapeCheck.Check.Outcome
import ShapeCheck.Value.Apply
import ShapeCheck.Value.Family

/-!
# One step of a check

What a schema asks of a value, in terms of a check `rec` of its parts.  A tagged schema
goes by its form and its tag.  A callable is a predicate.  Any other value is a literal
if it is primitive, and otherwise a shape, whose members are schemas for the members of
the value under the same keys.

Parts are checked in a fixed order: elements by position, members in the order in which
the value lists them, and alternatives as they stand.
-/

namespace ShapeCheck.Check

open Run

variable {σ : Type}

/-- The operations of a guard that answer as the guard does when it is called itself. -/
def guardOperations : List String := ["check", "is_valid", "__call__"]

/-- The callable that is called in the end when a callable passes its argument on. -/
def callee : Value → Value
  | .applied _ f | .decorated false f => callee f
  | .method (.guard mark name schema) operation =>
    if guardOperations.contains operation then .guard mark name schema
    else .method (.guard mark name schema) operation
  | f => f

/-- What a callable answers to an argument. -/
def invoke (host : Host σ) (rec : Value → Value → Run σ Outcome) (f v : Value) : Run σ Value :=
  match callee f with
  | .function mark name _ none => ask host mark name v
  | .function _ name _ (some schema) => do
    record name v
    return .bool (← rec schema v).isNone
  | .guard _ name schema => do return .bool (← guarded name (rec schema v)).isNone
  | .native n => lift (n.apply v)
  | .method self name => lift (host.operation self name v)
  | .tagged _ _ (.family f) => lift (Schema.checker f v)
  | .object .. | .classObject .. => lift (host.operation (callee f) "__call__" v)
  | _ => throw .wrongType

/-- Asks a predicate about a value. -/
def predicate (host : Host σ) (rec : Value → Value → Run σ Outcome) (f v : Value) :
    Run σ Outcome := do
  return .ofAnswer (← invoke host rec f v)

/-- The key under which a mismatch of a member is told that only the wildcard covers. -/
def coveredKey (key : Value) : Except Fault Value := do
  return .text ((← key.plain) ++ " -> " ++ Symbol.wildcardText)

/-- Tests one member of a value against a shape.  A key that the shape neither has nor
covers by the wildcard is refused if the test is strict, and passed over otherwise. -/
def member (rec : Value → Value → Run σ Outcome) (shape : Value) (strict : Bool)
    (entry : Value × Value) : Run σ Outcome := do
  let (key, item) := entry
  if ← lift (shape.hasKey key) then
    let schema ← lift (shape.get key)
    return (← rec schema item).map (.objectError · key)
  else if ← lift (shape.hasKey .wildcard) then
    let schema ← lift (shape.get .wildcard)
    match ← rec schema item with
    | none => return none
    | some problem => return some (.objectError problem (← lift (coveredKey key)))
  else if strict then return some (.illegalExtraKey key)
  else return none

/-- Tests the members of a value against a shape, in the order of the value. -/
def members (rec : Value → Value → Run σ Outcome) (shape v : Value) (strict : Bool) :
    Run σ Outcome :=
  eachMember v.listing (member rec shape strict)

/-- Tests whether a value has a declared key; the wildcard asks for none. -/
def present (v : Value) (entry : Value × Value) : Run σ Outcome := do
  if entry.1.isWildcard then return none
  return .ofBool (← lift (v.hasKey entry.1)) (.requiredKeyMissing entry.1)

/-- Tests whether a value has the declared keys of a shape, in the order of the shape. -/
def required (shape v : Value) : Run σ Outcome :=
  eachMember shape.listing (present v)

/-- Checks a value against a shape: first that no declared key is missing, then every
member. -/
def exactShape (rec : Value → Value → Run σ Outcome) (shape v : Value) : Run σ Outcome := do
  match ← required shape v with
  | some problem => return some problem
  | none => members rec shape v true

/-- Checks an object against required and optional keys: first the members under
declared and covered keys, then that no required key is missing, then every member. -/
def optionalObject (rec : Value → Value → Run σ Outcome)
    (requiredEntries optionalEntries : List (Value × Value)) (v : Value) : Run σ Outcome := do
  match ← members rec (.dict optionalEntries) v false with
  | some problem => return some problem
  | none =>
    match ← required (.dict requiredEntries) v with
    | some problem => return some problem
    | none => members rec (.dict optionalEntries) v true

/-- Checks one element of a sequence, given with its position. -/
def element (rec : Value → Value → Run σ Outcome) (schema : Value) (entry : Value × Nat) :
    Run σ Outcome := do
  return (← rec schema entry.1).map (.arrayError · entry.2)

/-- Checks the elements of a sequence. -/
def elements (rec : Value → Value → Run σ Outcome) (schema : Value) (items : List Value) :
    Run σ Outcome :=
  firstMismatch (element rec schema) items.zipIdx

/-- Checks one member of an object, whatever its key is. -/
def memberValue (rec : Value → Value → Run σ Outcome) (schema : Value)
    (entry : Value × Value) : Run σ Outcome := do
  return (← rec schema entry.2).map (.recordError · entry.1)

/-- Checks the members of an object against one schema. -/
def values (rec : Value → Value → Run σ Outcome) (schema v : Value) : Run σ Outcome :=
  eachMember v.listing (memberValue rec schema)

/-- Checks a value against the alternatives of a union. -/
def alternatives (rec : Value → Value → Run σ Outcome) (schemas : List Value) (v : Value) :
    Run σ Outcome := do
  return (← rejections (rec · v) schemas).map .unionNoMatch

/-- Checks a value against a form whose tag decides nothing by itself. -/
def byForm (host : Host σ) (rec : Value → Value → Run σ Outcome) (d : Value) (tag : Tag)
    (form : Form Value) (v : Value) : Run σ Outcome :=
  let refused : Problem := .incorrectType d v
  match form with
  | .union schemas => alternatives rec schemas v
  | .family f => pure (.ofBool (f.accepts v) refused)
  | .checker f p => if f.accepts v then predicate host rec p v else pure (some refused)
  | .array element =>
    match v with
    | .sequence _ _ items => elements rec element items
    | _ => pure (some refused)
  | .record schema => if v.isObject then values rec schema v else pure (some refused)
  | .optional requiredEntries optionalEntries =>
    if v.isObject then optionalObject rec requiredEntries optionalEntries v
    else pure (some refused)
  | .bare | .atomic => do throw (.unknownTag (← lift (Value.ofTag tag).shown))

/-- Checks a value against a tagged schema.  A union goes by its alternatives whatever
its tag is; otherwise some tags decide by themselves. -/
def tagged (host : Host σ) (rec : Value → Value → Run σ Outcome) (d : Value) (tag : Tag)
    (form : Form Value) (v : Value) : Run σ Outcome :=
  let accept (accepted : Bool) : Run σ Outcome := pure (.ofBool accepted (.incorrectType d v))
  match form, tag with
  | .union _, _ => byForm host rec d tag form v
  | _, .any => pure none
  | _, .void => accept v.isNull
  | _, .nullish => do accept (!(← lift v.truth))
  | _, .boolean => accept v.isBool
  | _, _ => byForm host rec d tag form v

/-- Checks an atom against a literal. -/
def literal (a : Atom) (l : Atom) (problem : Problem) : Run σ Outcome := do
  return .ofBool (← lift (a.matchesLiteral l)) problem

/-- Checks a value against a schema, given a check of its parts. -/
def step (host : Host σ) (rec : Value → Value → Run σ Outcome) (d v : Value) : Run σ Outcome :=
  match d with
  | .tagged _ tag form => tagged host rec d tag form v
  | _ =>
    if d.isCallable then predicate host rec d v
    else
      match d, v with
      | .atom _ l, .atom _ a => literal a l (.incorrectValue d v)
      | .atom .., _ | _, .atom .. => pure (some (.incorrectType d v))
      | _, _ => exactShape rec d v

end ShapeCheck.Check
