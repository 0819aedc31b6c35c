import ShapeCheck.Value.Elements

/-!
# Changing a value

Storing, removing and appending parts, and setting attributes.  Each gives the changed
value; `replaced` puts it into every value that shares the former one, so that a
change shows wherever the former value was a part.

Tagged schemas and mismatches are fixed once they are made.
-/

namespace ShapeCheck.Value

mutual

/-- A value with every copy of the value marked `mark` replaced. -/
def replaced (mark : Nat) (new : Value) : Value → Value
  | sequence m kind items =>
    if m = mark then new else sequence m kind (replacedItems mark new items)
  | mapping m kind entries =>
    if m = mark then new else mapping m kind (replacedEntries mark new entries)
  | bag m kind items => if m = mark then new else bag m kind (replacedItems mark new items)
  | buffer m bytes => if m = mark then new else buffer m bytes
  | record m fields => if m = mark then new else record m (replacedFields mark new fields)
  | object m layers slots fields =>
    if m = mark then new
    else object m (replacedLayers mark new layers) (replacedFields mark new slots)
      (replacedFields mark new fields)
  | classObject m layers =>
    if m = mark then new else classObject m (replacedLayers mark new layers)
  | computed result => computed (replaced mark new result)
  | decorated bindsClass inner => decorated bindsClass (replaced mark new inner)
  | function m name attrs schema =>
    if m = mark then new
    else function m name (replacedFields mark new attrs) (replacedOption mark new schema)
  | method self name => method (replaced mark new self) name
  | applied m callee => applied m (replaced mark new callee)
  | guard m name schema => if m = mark then new else guard m name (replaced mark new schema)
  | tagged m tag form => tagged m tag (replacedForm mark new form)
  | mismatch m problem => mismatch m (replacedMismatch mark new problem)
  | v@(atom ..) | v@(range ..) | v@(slotAccessor ..) | v@(failing _) | v@(native _) => v
termination_by structural v => v

def replacedItems (mark : Nat) (new : Value) : List Value → List Value
  | [] => []
  | v :: rest => replaced mark new v :: replacedItems mark new rest
termination_by structural items => items

def replacedEntries (mark : Nat) (new : Value) : List (Value × Value) → List (Value × Value)
  | [] => []
  | (k, v) :: rest => (replaced mark new k, replaced mark new v) :: replacedEntries mark new rest
termination_by structural entries => entries

def replacedFields (mark : Nat) (new : Value) : List (String × Value) → List (String × Value)
  | [] => []
  | (name, v) :: rest => (name, replaced mark new v) :: replacedFields mark new rest
termination_by structural fields => fields

def replacedLayers (mark : Nat) (new : Value) : List (Layer Value) → List (Layer Value)
  | [] => []
  | ⟨name, slots, attrs, truth, text, shown, callable⟩ :: rest =>
    ⟨name, slots, replacedFields mark new attrs, truth, text, shown, callable⟩ ::
      replacedLayers mark new rest
termination_by structural layers => layers

def replacedOption (mark : Nat) (new : Value) : Option Value → Option Value
  | none => none
  | some v => some (replaced mark new v)
termination_by structural schema => schema

def replacedForm (mark : Nat) (new : Value) : Form Value → Form Value
  | .bare => .bare
  | .atomic => .atomic
  | .family f => .family f
  | .checker f predicate => .checker f (replaced mark new predicate)
  | .array element => .array (replaced mark new element)
  | .record value => .record (replaced mark new value)
  | .optional required optional =>
    .optional (replacedEntries mark new required) (replacedEntries mark new optional)
  | .union alternatives => .union (replacedItems mark new alternatives)
termination_by structural form => form

def replacedMismatch (mark : Nat) (new : Value) : Mismatch Value → Mismatch Value
  | .incorrectType expected got =>
    .incorrectType (replaced mark new expected) (replaced mark new got)
  | .incorrectValue expected got =>
    .incorrectValue (replaced mark new expected) (replaced mark new got)
  | .unionNoMatch errors => .unionNoMatch (replacedMismatches mark new errors)
  | .arrayError error index => .arrayError (replacedMismatch mark new error) index
  | .recordError error key =>
    .recordError (replacedMismatch mark new error) (replaced mark new key)
  | .objectError error key =>
    .objectError (replacedMismatch mark new error) (replaced mark new key)
  | .requiredKeyMissing key => .requiredKeyMissing (replaced mark new key)
  | .illegalExtraKey key => .illegalExtraKey (replaced mark new key)
  | .checkerFailed reason => .checkerFailed reason
termination_by structural m => m

def replacedMismatches (mark : Nat) (new : Value) : List (Mismatch Value) → List (Mismatch Value)
  | [] => []
  | m :: rest => replacedMismatch mark new m :: replacedMismatches mark new rest
termination_by structural ms => ms

end

/-- The mark of a value that can change. -/
def changeableMark? : Value → Option Nat
  | sequence m .list _ | mapping m _ _ | bag m _ _ | buffer m _ | record m _ | object m _ _ _
  | classObject m _ | function m _ _ _ | guard m _ _ => some m
  | _ => none

/-- The place of a position in a list of a given length, counted from the end if it is
negative. -/
def place (length : Nat) (key : Value) : Except Fault Nat :=
  match key with
  | atom _ a =>
    match a.asInt? with
    | some i =>
      let i := if i < 0 then i + length else i
      if 0 ≤ i && i < length then .ok i.toNat else .error .badPosition
    | none => .error .wrongType
  | _ => .error .wrongType

/-- A value with a part stored under a subscript. -/
def storeAt (x key v : Value) : Except Fault Value :=
  match x with
  | mapping _ .readOnly _ => .error .wrongType
  | mapping m kind entries =>
    if key.isHashable then .ok (mapping m kind (insertEntry entries key v))
    else .error .wrongType
  | sequence m .list items =>
    (place items.length key).map fun i => sequence m .list (items.set i v)
  | bag m .deque items => (place items.length key).map fun i => bag m .deque (items.set i v)
  | buffer m bytes => do
    let i ← place bytes.length key
    return buffer m (bytes.set i (← v.byte))
  | _ => .error .wrongType

/-- The fault for an entry that a mapping does not have. -/
def missingEntry (kind : MappingKind) (key : Value) : Except Fault Value := do
  let shown ← key.shown
  if kind = .layered then
    throw (.missingKey (Text.quoted ("Key not found in the first mapping: " ++ shown)))
  else throw (.missingKey shown)

/-- A value without the part under a subscript. -/
def removeAt (x key : Value) : Except Fault Value :=
  match x with
  | mapping _ .readOnly _ => .error .wrongType
  | mapping m kind entries =>
    if !key.isHashable then .error .wrongType
    else if declares entries key then .ok (mapping m kind (eraseEntry entries key))
    else missingEntry kind key
  | sequence m .list items =>
    (place items.length key).map fun i => sequence m .list (items.eraseIdx i)
  | bag m .deque items => (place items.length key).map fun i => bag m .deque (items.eraseIdx i)
  | buffer m bytes => (place bytes.length key).map fun i => buffer m (bytes.eraseIdx i)
  | _ => .error .wrongType

/-- A value with an element added at its end. -/
def append (x v : Value) : Except Fault Value :=
  match x with
  | sequence m .list items => .ok (sequence m .list (items ++ [v]))
  | bag m .deque items => .ok (bag m .deque (items ++ [v]))
  | buffer m bytes => v.byte.map fun b => buffer m (bytes ++ [b])
  | _ => .error .missingAttribute

/-- Named fields with one stored; under a name that is there already it takes its
place. -/
def storeField (fields : List (String × Value)) (name : String) (v : Value) :
    List (String × Value) :=
  match fields with
  | [] => [(name, v)]
  | f :: rest => if f.1 = name then (name, v) :: rest else f :: storeField rest name v

/-- The entries of a mapping as named fields.  Only the plain kinds of mapping can become
the fields of a value, and only texts can name them. -/
def fieldsOf (v : Value) : Except Fault (List (String × Value)) :=
  match v with
  | mapping _ .dict entries | mapping _ .ordered entries | mapping _ .defaulting entries =>
    entries.mapM fun (key, item) =>
      match key with
      | atom _ (.text name false) => .ok (name, item)
      | _ => .error .wrongType
  | _ => .error .wrongType

/-- Named fields after an attribute is set.  All fields together are an attribute too, and
setting it stores even those whose names a class defines. -/
def withAttribute (fields : List (String × Value)) (name : String) (v : Value) :
    Except Fault (List (String × Value)) :=
  if name = "__dict__" then fieldsOf v else .ok (storeField fields name v)

/-- The last class of a hierarchy with an attribute stored. -/
def storeClassAttribute (layers : List (Layer Value)) (name : String) (v : Value) :
    List (Layer Value) :=
  match layers with
  | [] => []
  | [layer] => [{ layer with attrs := storeField layer.attrs name v }]
  | layer :: rest => layer :: storeClassAttribute rest name v

/-- A value with an attribute set. -/
def setAttribute (x : Value) (name : String) (v : Value) : Except Fault Value :=
  match x with
  | tagged .. | mismatch .. => .error .invalidFields
  | object m layers slots fields =>
    match classMember? layers name with
    | some (.slot _) => .ok (object m layers (storeField slots name v) fields)
    | some (.attr (computed _)) | some (.attr (failing _)) => .error .missingAttribute
    | some (.attr _) | none =>
      if layers.any Layer.isOpen then
        (withAttribute fields name v).map fun fields => object m layers slots fields
      else .error .missingAttribute
  | record m fields =>
    if name = "__dict__" then .error .missingAttribute
    else .ok (record m (storeField fields name v))
  | function m (some label) attrs schema =>
    (withAttribute attrs name v).map fun attrs => function m (some label) attrs schema
  | classObject m layers => .ok (classObject m (storeClassAttribute layers name v))
  | guard m label schema =>
    if name = "descriptor" then .ok (guard m label v)
    else
      match v with
      | atom _ (.text s _) => if name = "name" then .ok (guard m s schema) else .ok x
      | _ => .ok x
  | _ => .error .missingAttribute

end ShapeCheck.Value
