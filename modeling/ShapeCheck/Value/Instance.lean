import ShapeCheck.Value.Edit

/-!
# Classes and their instances

A hierarchy of classes is checked when it is defined: the name of a slot must be a proper
name and not that of an attribute of the same class, and a facility that instances have
already cannot be asked for again.  A new instance starts with nothing set.
-/

namespace ShapeCheck.Value

/-- Tells whether a slot declaration asks for a facility a second time. -/
def repeatsFacility (inherited : List (Layer Value)) (layer : Layer Value) (name : String) :
    Bool :=
  let asked := (layer.slots.names.filter (· = name)).length
  let had := inherited.any fun base => base.slots = .absent || base.slots.names.contains name
  1 < asked || (0 < asked && had)

/-- Tells whether a name can be given to a slot: it starts with a letter or an
underscore and goes on with letters, digits and underscores.  Every character beyond
ASCII counts as a letter. -/
def isSlotName (name : String) : Bool :=
  let isLetter (c : Char) := c.isAlpha || c = '_' || 127 < c.toNat
  match name.toList with
  | [] => false
  | c :: rest => isLetter c && rest.all fun c => isLetter c || c.isDigit

/-- Checks one class against the classes that it extends. -/
def checkLayer (inherited : List (Layer Value)) (layer : Layer Value) : Except Fault Unit := do
  if !layer.slots.names.all isSlotName then throw .wrongType
  if ["__dict__", "__weakref__"].any (repeatsFacility inherited layer) then throw .wrongType
  match layer.heldSlots.find? fun name => (layer.attrs.lookup name).isSome with
  | some name =>
    throw (.badValue (Text.quoted name ++ " in __slots__ conflicts with class variable"))
  | none => return ()

/-- Checks a hierarchy of classes, given with the base class first. -/
def checkLayers (inherited : List (Layer Value)) : List (Layer Value) → Except Fault Unit
  | [] => .ok ()
  | layer :: rest => do
    checkLayer inherited layer
    checkLayers (inherited ++ [layer]) rest

/-- The last class of a hierarchy. -/
def defineClass (layers : List (Layer Value)) : Except Fault Value := do
  checkLayers [] layers
  return classObject 0 layers

/-- A new instance of the last class of a hierarchy, with nothing set. -/
def instantiate (layers : List (Layer Value)) : Except Fault Value := do
  checkLayers [] layers
  return object 0 layers [] []

end ShapeCheck.Value
