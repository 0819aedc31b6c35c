import ShapeCheck.Value.Equal
import ShapeCheck.Value.Inherited

/-!
# Attributes

Values other than mappings and sequences are looked into by attribute name.  An
object finds a name in the nearest class that defines it: a slot answers with what
the instance holds in it, a computed attribute with its result, and any other class
attribute gives way to an attribute of the instance itself.  What no class of it and
no field defines may still come with its type.

A class hands its own attributes out as they are, unless they are decorated.

A slot with a private name is held under a name that also spells the class.  The
listing of slots always qualifies private names so, whereas a class whose name
consists of underscores only holds them as they are; such slots are therefore not
found under their listed names.
-/

namespace ShapeCheck

/-- Tells whether a name is reserved for the inner workings of values: it starts and
ends with two underscores. -/
def isReservedName (name : String) : Bool := name.startsWith "__" && name.endsWith "__"

def isPrivateName (name : String) : Bool := name.startsWith "__" && !name.endsWith "__"

/-- Tells whether a slot declaration asks for a facility instead of a slot. -/
def isFacility (name : String) : Bool := name = "__dict__" || name = "__weakref__"

/-- A class name without the underscores that it starts with. -/
def strippedClassName (className : String) : String :=
  String.ofList (className.toList.dropWhile (· = '_'))

/-- The name under which the listing of slots looks a declared slot up. -/
def listedSlotName (className slot : String) : String :=
  if isPrivateName slot then "_" ++ strippedClassName className ++ slot else slot

/-- The name under which a class holds a declared slot. -/
def heldSlotName (className slot : String) : String :=
  if isPrivateName slot && strippedClassName className ≠ "" then listedSlotName className slot
  else slot

namespace Layer

/-- The declared slots of a class without the facilities. -/
def slotNames {α : Type} (layer : Layer α) : List String :=
  layer.slots.names.filter fun name => !isFacility name

/-- The names under which a class holds its slots. -/
def heldSlots {α : Type} (layer : Layer α) : List String :=
  layer.slotNames.map (heldSlotName layer.name)

/-- The names under which the listing looks the slots of a class up. -/
def listedSlots {α : Type} (layer : Layer α) : List String :=
  layer.slotNames.map (listedSlotName layer.name)

/-- Tells whether a class gives its instances attributes of any name. -/
def isOpen {α : Type} (layer : Layer α) : Bool :=
  layer.slots = .absent || layer.slots.names.contains "__dict__"

/-- Tells whether instances of a class can be referred to without being kept. -/
def isReferable {α : Type} (layer : Layer α) : Bool :=
  layer.slots = .absent || layer.slots.names.contains "__weakref__"

end Layer

/-- What a class defines under a name. -/
inductive ClassMember where
  | slot (owner : String)
  | attr (v : Value)

namespace Value

/-- What one class itself defines under a name. -/
def ownMember? (layer : Layer Value) (name : String) : Option ClassMember :=
  if layer.heldSlots.contains name then some (.slot layer.name)
  else (layer.attrs.lookup name).map .attr

/-- What the nearest class of a hierarchy defines under a name. -/
def classMember? (layers : List (Layer Value)) (name : String) : Option ClassMember :=
  layers.reverse.findSome? fun layer => ownMember? layer name

/-- The slot declaration of a hierarchy as a value: that of the nearest class that has
one, or no names at all. -/
def slotDeclaration (layers : List (Layer Value)) : Value :=
  let declared := layers.reverse.find? fun layer => layer.slots ≠ .absent
  match declared.map Layer.slots with
  | some (.one name) => text name
  | some (.many names) => list (names.map text)
  | some .absent | none => tuple []

/-- Named fields as entries of a mapping. -/
def fieldEntries (fields : List (String × Value)) : List (Value × Value) :=
  fields.map fun (name, v) => (text name, v)

/-- Named fields without those of reserved names. -/
def openFields (fields : List (String × Value)) : List (String × Value) :=
  fields.filter fun (name, _) => !isReservedName name

/-- The attributes that an object has although no class of it defines them. -/
def objectFacility? (mark : Nat) (layers : List (Layer Value))
    (slots fields : List (String × Value)) (name : String) : Option Value :=
  if name = "__class__" then some (classObject mark layers)
  else if name = "__doc__" then some null
  else if name = "__module__" then some (text "user")
  else if name = "__slots__" then some (slotDeclaration layers)
  else if name = "__dict__" && layers.any Layer.isOpen then some (dict (fieldEntries fields))
  else if name = "__call__" && layers.any Layer.callable then some (native .callable)
  else if name = "__weakref__" && layers.any Layer.isReferable then some null
  else if (name = "__bool__" && layers.any fun layer => layer.truth.isSome) ||
      Native.commonNames.contains name then
    some (method (object mark layers slots fields) name)
  else none

/-- The name that a callable goes by when it is bound to a value. -/
def operationName : Value → String
  | function _ (some label) .. => label
  | native n => n.name
  | _ => "__call__"

/-- A class attribute as the class itself sees it: what a decorated one wraps, or an
operation of the class. -/
def handedOut (owner attr : Value) : Value :=
  match attr with
  | decorated false inner => inner
  | decorated true inner => method owner inner.operationName
  | v => v

/-- A class attribute as an instance sees it: predicates become operations of the
instance. -/
def bound (self owner attr : Value) : Value :=
  match attr with
  | function _ (some label) .. => method self label
  | v => handedOut owner v

/-- The attribute of an object. -/
def objectAttribute? (mark : Nat) (layers : List (Layer Value))
    (slots fields : List (String × Value)) (name : String) : Except Fault (Option Value) :=
  match classMember? layers name with
  | some (.slot _) => .ok (slots.lookup name)
  | some (.attr (computed result)) => .ok (some result)
  | some (.attr (failing kind)) =>
    if kind = "AttributeError" then .ok none else .error (.raised kind "property failed")
  | some (.attr v) =>
    .ok (some ((fields.lookup name).getD
      (bound (object mark layers slots fields) (classObject mark layers) v)))
  | none => .ok ((fields.lookup name).or (objectFacility? mark layers slots fields name))

/-- The attribute of a class. -/
def classAttribute? (mark : Nat) (layers : List (Layer Value)) (name : String) : Option Value :=
  match classMember? layers name with
  | some (.slot owner) => some (slotAccessor owner name)
  | some (.attr v) => some (handedOut (classObject mark layers) v)
  | none =>
    if name = "__class__" then some (native (.otherType "type" "type"))
    else if name = "__name__" then some (text (className layers))
    else if name = "__doc__" then some null
    else if name = "__module__" then some (text "user")
    else if name = "__slots__" then some (slotDeclaration layers)
    else if name = "__dict__" then
      some (mapping 0 .readOnly (fieldEntries ((layers.getLast?.map Layer.attrs).getD [])))
    else if name = "__call__" then some (native .callable)
    else if (name = "__weakref__" && layers.any Layer.isReferable) ||
        (Native.commonNames ++ Native.typeNames).contains name then
      some (method (classObject mark layers) name)
    else none

/-- The description that some types carry. -/
def description? : Native → Option String
  | .set => some ("set() -> new empty set object\nset(iterable) -> new set object\n\n" ++
      "Build an unordered collection of unique elements.")
  | .frozenset => some ("frozenset() -> empty frozenset object\n" ++
      "frozenset(iterable) -> frozenset object\n\n" ++
      "Build an immutable unordered collection of unique elements.")
  | .range => some ("range(stop) -> range object\nrange(start, stop[, step]) -> range object\n\n" ++
      "Return an object that produces a sequence of integers from start (inclusive)\n" ++
      "to stop (exclusive) by step.  range(i, j) produces i, i+1, i+2, ..., j-1.\n" ++
      "start defaults to 0, and stop is omitted!  range(4) produces 0, 1, 2, 3.\n" ++
      "These are exactly the valid indices for a list of 4 elements.\n" ++
      "When step is given, it specifies the increment (or decrement).")
  | .deque => some ("deque([iterable[, maxlen]]) --> deque object\n\n" ++
      "A list-like sequence optimized for data accesses near its endpoints.")
  | .bytearray => some ("bytearray(iterable_of_ints) -> bytearray\n" ++
      "bytearray(string, encoding[, errors]) -> bytearray\n" ++
      "bytearray(bytes_or_buffer) -> mutable copy of bytes_or_buffer\n" ++
      "bytearray(int) -> bytes array of size given by the parameter " ++
      "initialized with null bytes\n" ++
      "bytearray() -> empty bytes array\n\nConstruct a mutable bytearray object from:\n" ++
      "  - an iterable yielding integers in range(256)\n" ++
      "  - a text string encoded using the specified encoding\n" ++
      "  - a bytes or a buffer object\n  - any object implementing the buffer API.\n" ++
      "  - an integer")
  | .namespaceType =>
    some "A simple attribute-based namespace.\n\nSimpleNamespace(**kwargs)"
  | _ => none

/-- The attributes that callables have besides those of every value. -/
def callableFacility? (label : Option String) (hasFields : Bool) (fields : List (String × Value))
    (name : String) : Option Value :=
  if name = "__call__" then some (native .callable)
  else if name = "__name__" then label.map text
  else if name = "__dict__" && hasFields then some (dict (fieldEntries fields))
  else if name = "__module__" then some null
  else none

/-- The attributes that tell about a value of some kind. -/
def kindAttribute? (v : Value) (name : String) : Option Value :=
  match v with
  | range _ start stop step =>
    if name = "start" then some (int start)
    else if name = "stop" then some (int stop)
    else if name = "step" then some (int step)
    else none
  | bag _ kind _ =>
    if (name = "__hash__" && kind ≠ .frozenset) || (name = "maxlen" && kind = .deque) then
      some null
    else none
  | buffer .. => if name = "__hash__" then some null else none
  | record _ fields =>
    (fields.lookup name).or
      (if name = "__dict__" then some (dict (fieldEntries fields))
       else if name = "__hash__" then some null
       else none)
  | computed _ =>
    if name = "fset" || name = "fdel" then some null
    else if name = "__isabstractmethod__" then some (bool false)
    else none
  | slotAccessor owner label =>
    if name = "__name__" then some (text label)
    else if name = "__qualname__" then some (text (owner ++ "." ++ label))
    else none
  | decorated _ inner =>
    if name = "__func__" || name = "__wrapped__" then some inner
    else
      match inner with
      | function _ (some label) .. =>
        if name = "__name__" || name = "__qualname__" then some (text label) else none
      | _ => none
  | function _ (some label) attrs _ =>
    (attrs.lookup name).or (callableFacility? (some label) true attrs name)
  | function _ none .. =>
    if name = "__slots__" then some (tuple []) else callableFacility? none false [] name
  | method _ label => callableFacility? (some label) false [] name
  | applied .. =>
    if name = "__name__" then none else callableFacility? none true [] name
  | native n => callableFacility? (some n.name) n.isType [] name
  | guard _ label schema =>
    if name = "descriptor" then some schema
    else if name = "name" then some (text label)
    else if name = "check" || name = "is_valid" || name = "validate" then some (method v name)
    else callableFacility? none true [("descriptor", schema), ("name", text label)] name
  | _ => none

/-- The attributes that a value has by its type. -/
def typeAttribute? (v : Value) (name : String) : Option Value :=
  if name = "__class__" then some (native (typeOf v))
  else if name = "__doc__" then some (((description? (typeOf v)).map text).getD null)
  else if v.inheritedNames.contains name then some (method v name)
  else none

/-- The attribute of a value under a name, if there is one.  Looking an attribute up
fails when the attribute is computed and its computation fails. -/
def attribute? (v : Value) (name : String) : Except Fault (Option Value) :=
  match v with
  | object mark layers slots fields => objectAttribute? mark layers slots fields name
  | classObject mark layers => .ok (classAttribute? mark layers name)
  | v => .ok ((kindAttribute? v name).or (typeAttribute? v name))

end Value

end ShapeCheck
