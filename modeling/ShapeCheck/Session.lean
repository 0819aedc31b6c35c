import ShapeCheck.Guard
import ShapeCheck.Json.Reader
import ShapeCheck.Mismatch.Assemble
import ShapeCheck.Mismatch.Tree
import ShapeCheck.Predicate
import ShapeCheck.Value.Instance

/-!
# Sessions

A session keeps values under names while checks, guards and changes of values go on in
one set of surroundings.  Every value that is made anew gets a mark of its own, so that a
value and its copies can be told from one that is only equal to them.

A change of a value shows in everything that shares the value: in other named values, in
schemas and mismatches that hold it, and in predicates that were made with it.
-/

namespace ShapeCheck

/-- Named values together with their surroundings. -/
structure Session where
  world : World Stock
  named : List (String × Value)
  /-- The mark of the next value that is made. -/
  nextMark : Nat

/-- A computation in a session, which may fail; what happened before stays. -/
abbrev Sessional (α : Type) : Type := ExceptT Fault (StateM Session) α

namespace Session

/-- A session without named values, in surroundings where nothing is set. -/
def start (stem : String) (clock : Log.Clock) : Session where
  world :=
    { predicates := []
      calls := []
      environment := ⟨stem, [], none⟩
      cached := none
      logging := .unconfigured
      clock
      events := [] }
  named := []
  nextMark := 1

/-- Runs a computation in the surroundings of a session. -/
def within {α : Type} (run : Run Stock α) : Sessional α := fun session =>
  let (answer, world) := run session.world
  (answer, { session with world })

/-- Gives an answer that depends on nothing. -/
def lift {α : Type} (answer : Except Fault α) : Sessional α := fun session => (answer, session)

/-- A mark that no value has. -/
def newMark : Sessional Nat := fun session =>
  (.ok session.nextMark, { session with nextMark := session.nextMark + 1 })

/-- Makes a value anew. -/
def new (v : Value) : Sessional Value := do
  return v.withMark (← newMark)

/-- Makes a predicate of the stock. -/
def newPredicate (name : Option String) (attrs : List (String × Value)) (p : Predicate) :
    Sessional Value := do
  let mark ← newMark
  modify fun session =>
    { session with
      world := { session.world with
        predicates := session.world.predicates ++ [(mark, p, 0)] } }
  return .function mark name attrs none

/-- Keeps a value under a name. -/
def keep (name : String) (v : Value) : Sessional Unit :=
  modify fun session => { session with named := Value.storeField session.named name v }

/-- The value under a name. -/
def get (name : String) : Sessional Value := do
  match (← getThe Session).named.lookup name with
  | some v => return v
  | none => throw .missingAttribute

/-- Makes the schema of objects with required and optional keys.  A required wildcard is
reported to the log before it is refused. -/
def withOptional (required optional : Value) : Sessional Value := do
  match Schema.withOptional required optional with
  | .error .wildcardRequired =>
    within (Run.emit Log.misuse)
    throw .wildcardRequired
  | answer => do new (← lift answer)

/-- Merges the shapes that a value yields.  A single shape is returned as it is and stays
the value that it was; a merged one is made anew. -/
def join (shapes : Value) : Sessional Value := do
  let joined ← lift (Schema.join shapes)
  if (← lift shapes.length) = 1 then return joined else new joined

/-- Makes the guard of a schema. -/
def newGuard (schema : Value) (name : Option String) : Sessional Value := do
  new (← lift (Guard.ofSchema schema name)).toValue

/-- Makes a callable that passes its argument on; passing on to another such callable
passes on to the last one at once. -/
def newApplied (callee : Value) : Sessional Value :=
  match callee with
  | .applied _ f => new (.applied 0 f)
  | f => if f.isCallable then new (.applied 0 f) else throw .wrongType

/-- Calls a callable. -/
def call (f v : Value) : Sessional Value := do
  new (← within (ShapeCheck.call Stock.host f v))

/-- Checks a value against a schema. -/
def check (d v : Value) : Sessional Outcome := within (ShapeCheck.check Stock.host d v)

/-- Puts a changed value in place of the former one wherever that is shared. -/
def change (former changed : Value) : Sessional Unit :=
  match former.changeableMark? with
  | none => pure ()
  | some mark =>
    modify fun session =>
      let renew := Value.replaced mark changed
      { session with
        named := session.named.map fun (name, v) => (name, renew v)
        world := { session.world with
          predicates := session.world.predicates.map fun (m, p, asked) =>
            (m, p.replaced mark changed, asked) } }

/-- Stores a part of a value under a subscript. -/
def storeAt (x key v : Value) : Sessional Unit := do change x (← lift (x.storeAt key v))

/-- Removes the part of a value under a subscript. -/
def removeAt (x key : Value) : Sessional Unit := do change x (← lift (x.removeAt key))

/-- Adds an element at the end of a value. -/
def append (x v : Value) : Sessional Unit := do change x (← lift (x.append v))

/-- Sets an attribute of a value. -/
def setAttribute (x : Value) (name : String) (v : Value) : Sessional Unit := do
  change x (← lift (x.setAttribute name v))

/-- The name and the content of a symbol. -/
def symbolParts : Value → List (String × Value)
  | .atom _ (.symbol (.named _ name content)) | .atom _ (.symbol (.textual _ name content)) =>
    [("name", .text name), ("value", .text content)]
  | .atom _ (.symbol (.numeric _ name content)) =>
    [("name", .text name), ("value", .int content)]
  | .atom _ (.symbol (.quantity _ name content)) =>
    [("name", .text name), ("value", .atom 0 (.number content))]
  | .atom _ (.symbol (.flags _ names bits)) =>
    [("name", if names.isEmpty then .null else .text ("|".intercalate names)),
     ("value", .int bits)]
  | .atom _ (.symbol .wildcard) =>
    [("name", .text "DEFAULT"), ("value", .text Symbol.wildcardText)]
  | _ => []

/-- The attribute of a value as a caller reads it. -/
def attributeOf (x : Value) (name : String) : Except Fault Value := do
  match (x.parts ++ symbolParts x).lookup name with
  | some v => return v
  | none =>
    match ← x.attribute? name with
    | some v => return v
    | none => throw .missingAttribute

end Session

end ShapeCheck
