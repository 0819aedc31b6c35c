import ShapeCheck.Atom
import ShapeCheck.Mismatch
import ShapeCheck.Schema

/-!
# Values

The dynamic values that are checked, and that schemas are made of: a schema is
itself a value.  Besides atoms there are sequences, mappings, bags, buffers, ranges,
records, objects of a class hierarchy, callables of several kinds, tagged schemas
and mismatches.

Two values may be equal without being the same one.  Every value that is made anew
carries a `mark`, and values with equal marks are copies of one value; this is
what identity means here, without any store behind it.
-/

namespace ShapeCheck

/-- The kinds of sequence. -/
inductive SequenceKind where
  | list
  | tuple
  /-- A tuple of a named type, with a name for each position. -/
  | named (name : String) (fields : List String)
  deriving DecidableEq

/-- The kinds of mapping.  All keep their entries in order of insertion. -/
inductive MappingKind where
  | dict | ordered | defaulting | readOnly | layered | wrapped
  deriving DecidableEq

/-- The kinds of bag: containers that have elements but no keys. -/
inductive BagKind where
  | set | frozenset | deque
  deriving DecidableEq

/-- The slots that a class declares. -/
inductive SlotDeclaration where
  /-- No declaration: instances have attributes of any name. -/
  | absent
  | one (name : String)
  | many (names : List String)
  deriving DecidableEq

namespace SlotDeclaration

/-- The declared names, in order. -/
def names : SlotDeclaration → List String
  | absent => []
  | one name => [name]
  | many names => names

end SlotDeclaration

/-- One class of a hierarchy, with class attributes of type `α`. -/
structure Layer (α : Type) where
  name : String
  slots : SlotDeclaration
  /-- The attributes of the class itself, in order.  The operations that the language calls
  by itself are not among them: what they answer is told by the fields below. -/
  attrs : List (String × α)
  /-- What instances answer when they are asked whether they count as true, if the class
  decides it. -/
  truth : Option (Except Fault Bool)
  /-- The plain text of instances, if the class decides it. -/
  text : Option (Except Fault String)
  /-- The text of instances inside larger values, if the class decides it. -/
  shown : Option (Except Fault String)
  /-- Instances can be called. -/
  callable : Bool

/-- The callables and types that are always there. -/
inductive Native where
  | bool | str | int | float | list | dict
  | set | frozenset | range | deque | bytearray | namespaceType
  | len | callable | repr | abs | all | any
  /-- A type that is only ever named. -/
  | otherType (name qualified : String)
  deriving DecidableEq

/-- A dynamic value. -/
inductive Value where
  /-- A value without parts. -/
  | atom (mark : Nat) (a : Atom)
  /-- Elements under consecutive positions. -/
  | sequence (mark : Nat) (kind : SequenceKind) (items : List Value)
  /-- Entries under distinct keys. -/
  | mapping (mark : Nat) (kind : MappingKind) (entries : List (Value × Value))
  /-- Elements without keys. -/
  | bag (mark : Nat) (kind : BagKind) (items : List Value)
  /-- A mutable byte string. -/
  | buffer (mark : Nat) (bytes : List UInt8)
  /-- The integers from `start` to before `stop`, `step` apart. -/
  | range (mark : Nat) (start stop step : Int)
  /-- A bare collection of named fields. -/
  | record (mark : Nat) (fields : List (String × Value))
  /-- An instance of the last class of a hierarchy, given with the base class first:
  the slots that hold a value, and the attributes of any name in order. -/
  | object (mark : Nat) (layers : List (Layer Value)) (slots fields : List (String × Value))
  /-- The last class of a hierarchy. -/
  | classObject (mark : Nat) (layers : List (Layer Value))
  /-- What a class holds under the name of a slot. -/
  | slotAccessor (owner name : String)
  /-- A class attribute that is computed for each instance. -/
  | computed (result : Value)
  /-- A class attribute whose computation fails. -/
  | failing (kind : String)
  /-- A class attribute that is not handed out as it is: the class and its instances get
  what it wraps, or else an operation that is bound to the class. -/
  | decorated (bindsClass : Bool) (inner : Value)
  /-- A predicate of the caller.  Without a name it is a callable object; with a schema
  it answers whether its argument conforms to it. -/
  | function (mark : Nat) (name : Option String) (attrs : List (String × Value))
    (schema : Option Value)
  /-- An operation bound to the value that it belongs to. -/
  | method (self : Value) (name : String)
  /-- A callable that passes its argument on to another. -/
  | applied (mark : Nat) (callee : Value)
  /-- A callable or type that is always there. -/
  | native (n : Native)
  /-- A schema bound to a name for reuse. -/
  | guard (mark : Nat) (name : String) (schema : Value)
  /-- A tagged schema. -/
  | tagged (mark : Nat) (tag : Tag) (form : Form Value)
  /-- A mismatch as a value. -/
  | mismatch (mark : Nat) (m : Mismatch Value)

/-- A mismatch between values. -/
abbrev Problem := Mismatch Value

namespace Value

/-- The null value. -/
def null : Value := atom 0 .null

/-- A truth value. -/
def bool (b : Bool) : Value := atom 0 (.bool b)

/-- A text. -/
def text (s : String) : Value := atom 0 (.text s false)

/-- An integer. -/
def int (i : Int) : Value := atom 0 (.number (.int i false))

/-- The reserved key. -/
def wildcard : Value := atom 0 (.symbol .wildcard)

/-- A mapping of the plain kind. -/
def dict (entries : List (Value × Value)) : Value := mapping 0 .dict entries

/-- A list. -/
def list (items : List Value) : Value := sequence 0 .list items

/-- A tuple. -/
def tuple (items : List Value) : Value := sequence 0 .tuple items

/-- The same value as another copy of `mark`. -/
def withMark (mark : Nat) : Value → Value
  | atom _ a => atom mark a
  | sequence _ kind items => sequence mark kind items
  | mapping _ kind entries => mapping mark kind entries
  | bag _ kind items => bag mark kind items
  | buffer _ bytes => buffer mark bytes
  | range _ start stop step => range mark start stop step
  | record _ fields => record mark fields
  | object _ layers slots fields => object mark layers slots fields
  | classObject _ layers => classObject mark layers
  | function _ name attrs schema => function mark name attrs schema
  | applied _ callee => applied mark callee
  | guard _ name schema => guard mark name schema
  | tagged _ tag form => tagged mark tag form
  | mismatch _ m => mismatch mark m
  | v@(slotAccessor ..) | v@(computed _) | v@(failing _) | v@(decorated ..) | v@(method ..)
  | v@(native _) => v

/-- Primitive values are compared by equality rather than by shape. -/
def isPrimitive : Value → Bool
  | atom .. => true
  | _ => false

def isCallable : Value → Bool
  | object _ layers _ _ => layers.any Layer.callable
  | tagged _ _ (.family _) => true
  | decorated bindsClass _ => !bindsClass
  | classObject .. | function .. | method .. | applied .. | native _ | guard .. => true
  | _ => false

/-- Objects are the values that are neither primitive nor callable. -/
def isObject (v : Value) : Bool := !v.isPrimitive && !v.isCallable

def isMapping : Value → Bool
  | mapping .. => true
  | _ => false

def isSequence : Value → Bool
  | sequence .. => true
  | _ => false

def isTagged : Value → Bool
  | tagged .. => true
  | _ => false

/-- The text that a value is, if it is one. -/
def asText? : Value → Option String
  | atom _ a => a.asText?
  | _ => none

def isNull : Value → Bool
  | atom _ .null => true
  | _ => false

def isBool : Value → Bool
  | atom _ a => a.isBool
  | _ => false

/-- Tells whether a value is the truth value true, and not merely counted as true. -/
def isTrue : Value → Bool
  | atom _ (.bool b) => b
  | _ => false

def isWildcard : Value → Bool
  | atom _ (.symbol .wildcard) => true
  | _ => false

/-- The number of integers in a range. -/
def rangeLength (start stop step : Int) : Nat :=
  if 0 < step then ((stop - start + step - 1).fdiv step).toNat
  else if step < 0 then ((start - stop - step - 1).fdiv (-step)).toNat
  else 0

/-- The name of the class of an object: that of the last layer. -/
def className (layers : List (Layer Value)) : String :=
  (layers.getLast?.map Layer.name).getD "object"

/-- Tells whether a value counts as true: empty containers do not.  A class may decide
for its instances, and then the answer may fail. -/
def truth : Value → Except Fault Bool
  | atom _ a => .ok a.truth
  | sequence _ _ items => .ok (!items.isEmpty)
  | mapping _ _ entries => .ok (!entries.isEmpty)
  | bag _ _ items => .ok (!items.isEmpty)
  | buffer _ bytes => .ok (!bytes.isEmpty)
  | range _ start stop step => .ok (rangeLength start stop step ≠ 0)
  | object _ layers _ _ => (layers.reverse.findSome? Layer.truth).getD (.ok true)
  | _ => .ok true

end Value

namespace MappingKind

/-- The name of the type of a kind of mapping. -/
def typeName : MappingKind → String
  | dict => "dict"
  | ordered => "OrderedDict"
  | defaulting => "defaultdict"
  | readOnly => "mappingproxy"
  | layered => "ChainMap"
  | wrapped => "UserDict"

end MappingKind

namespace BagKind

/-- The name of the type of a kind of bag. -/
def typeName : BagKind → String
  | set => "set"
  | frozenset => "frozenset"
  | deque => "deque"

end BagKind

namespace Native

/-- The name of a native callable or type. -/
def name : Native → String
  | bool => "bool"
  | str => "str"
  | int => "int"
  | float => "float"
  | list => "list"
  | dict => "dict"
  | set => "set"
  | frozenset => "frozenset"
  | range => "range"
  | deque => "deque"
  | bytearray => "bytearray"
  | namespaceType => "SimpleNamespace"
  | len => "len"
  | callable => "callable"
  | repr => "repr"
  | abs => "abs"
  | all => "all"
  | any => "any"
  | otherType name _ => name

def isType : Native → Bool
  | len | callable | repr | abs | all | any => false
  | _ => true

/-- The name of a native type together with the module that it is found in. -/
def qualifiedName : Native → String
  | deque => "collections.deque"
  | namespaceType => "types.SimpleNamespace"
  | otherType _ qualified => qualified
  | n => n.name

end Native

namespace Value

/-- The name of the type of a value. -/
def typeName : Value → String
  | atom _ a => a.typeName
  | sequence _ .list _ => "list"
  | sequence _ .tuple _ => "tuple"
  | sequence _ (.named name _) _ => name
  | mapping _ kind _ => kind.typeName
  | bag _ kind _ => kind.typeName
  | buffer .. => "bytearray"
  | range .. => "range"
  | record .. => "SimpleNamespace"
  | object _ layers _ _ => className layers
  | classObject .. => "type"
  | slotAccessor .. => "member_descriptor"
  | computed _ | failing _ => "property"
  | decorated bindsClass _ => if bindsClass then "classmethod" else "staticmethod"
  | function _ (some _) .. => "function"
  | function _ none .. => "CallObj"
  | method (bag ..) _ | method (range ..) _ | method (buffer ..) _ => "builtin_function_or_method"
  | method .. => "method"
  | applied .. => "partial"
  | native n => if n.isType then "type" else "builtin_function_or_method"
  | guard .. => "TypeGuard"
  | tagged _ _ form => form.typeName
  | mismatch _ m => m.kind

/-- The name of the type of a value as its definition spells it, which for some types
includes the module. -/
def qualifiedTypeName : Value → String
  | atom _ (.number (.decimal _)) => "decimal.Decimal"
  | mapping _ .ordered _ => "collections.OrderedDict"
  | mapping _ .defaulting _ => "collections.defaultdict"
  | bag _ .deque _ => "collections.deque"
  | record .. => "types.SimpleNamespace"
  | applied .. => "functools.partial"
  | v => v.typeName

end Value

end ShapeCheck
