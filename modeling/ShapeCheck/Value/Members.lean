import ShapeCheck.Value.Entries
import ShapeCheck.Value.Text

/-!
# Members of a container

Three views of any value that is looked into: the listing of its own members, the
test whether a key is present, and the member under a present key.  A mapping finds a
key by identity or equality, a sequence by an integer position that is not a truth
value, and any other value by the name of an attribute.

Presence is wider than the listing for values with attributes: class attributes,
computed attributes and what every object has are present without being listed.
-/

namespace ShapeCheck

/-- The own members of a value in order.  Reading a computed attribute may fail, and
then the listing ends with that fault. -/
structure Listing where
  members : List (Value × Value)
  fault : Option Fault

namespace Value

/-- The elements of a sequence under their positions, counted from `start`. -/
def positions (start : Nat) : List Value → List (Value × Value)
  | [] => []
  | v :: rest => (int start, v) :: positions (start + 1) rest

/-- Reads the listed slots of an object in order, leaving out those that hold nothing. -/
def readSlots (read : String → Except Fault (Option Value)) :
    List String → List (String × Value) × Option Fault
  | [] => ([], none)
  | name :: rest =>
    match read name with
    | .error fault => ([], some fault)
    | .ok none => readSlots read rest
    | .ok (some v) =>
      let (more, fault) := readSlots read rest
      ((name, v) :: more, fault)

/-- The names of all slots of a hierarchy in the order of the listing. -/
def listedSlots (layers : List (Layer Value)) : List String :=
  (layers.map Layer.listedSlots).flatten

/-- The members that a class itself defines: its attributes, then its slots by name. -/
def classFields (layers : List (Layer Value)) : List (String × Value) :=
  match layers.getLast? with
  | none => []
  | some layer =>
    openFields (layer.attrs ++
      (layer.heldSlots.mergeSort fun a b => a ≤ b).eraseDups.map fun name =>
        (name, slotAccessor layer.name name))

/-- The own members of a value. -/
def listing : Value → Listing
  | mapping _ _ entries => ⟨entries, none⟩
  | sequence _ _ items => ⟨positions 0 items, none⟩
  | v@(object _ layers _ fields) =>
    match readSlots v.attribute? (listedSlots layers) with
    | (held, some fault) => ⟨fieldEntries held, some fault⟩
    | (held, none) =>
      ⟨fieldEntries (held ++ if layers.any Layer.isOpen then openFields fields else []), none⟩
  | classObject _ layers => ⟨fieldEntries (classFields layers), none⟩
  | record _ fields => ⟨fieldEntries (openFields fields), none⟩
  | function _ (some _) attrs _ => ⟨fieldEntries (openFields attrs), none⟩
  | guard _ name schema => ⟨[(text "descriptor", schema), (text "name", text name)], none⟩
  | _ => ⟨[], none⟩

/-- The position that a key stands for in a sequence: an integer, but not a truth
value. -/
def position? : Value → Option Int
  | atom _ (.bool _) => none
  | atom _ a => a.asInt?
  | _ => none

/-- Tells whether a key is present in a value. -/
def hasKey (container key : Value) : Except Fault Bool :=
  match container with
  | mapping _ _ entries =>
    if key.isHashable then .ok (declares entries key) else .error .wrongType
  | sequence _ _ items =>
    .ok (match key.position? with
      | some i => 0 ≤ i && i < items.length
      | none => false)
  | v =>
    match key.asText? with
    | some name => (v.attribute? name).map Option.isSome
    | none => .ok false

/-- The element of a sequence at a position, counted from the end if it is negative. -/
def elementAt (items : List Value) (i : Int) : Except Fault Value :=
  let i := if i < 0 then i + items.length else i
  if i < 0 then .error .badPosition
  else
    match items[i.toNat]? with
    | some v => .ok v
    | none => .error .badPosition

/-- The member of a value under a key.  An absent key is a fault, except in a mapping
with defaults, which answers with an empty list. -/
def get (container key : Value) : Except Fault Value :=
  match container with
  | mapping _ kind entries =>
    if !key.isHashable then .error .wrongType
    else
      match entryAt? entries key with
      | some e => .ok e.2
      | none =>
        if kind = .defaulting then .ok (list [])
        else do throw (.missingKey (← key.shown))
  | sequence _ _ items =>
    match key with
    | atom _ a =>
      match a.asInt? with
      | some i => elementAt items i
      | none => .error .wrongType
    | _ => .error .wrongType
  | v =>
    match key.asText? with
    | some name => do
      match ← v.attribute? name with
      | some w => return w
      | none => throw .missingAttribute
    | none => .error .wrongType

end Value

end ShapeCheck
