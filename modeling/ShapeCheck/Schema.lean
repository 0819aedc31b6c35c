/-!
# Schema forms

A tagged schema is a value that is marked as describing other values.  Its form says
what it describes; its tag is the name it goes by.  The combinators always pair a
form with its own tag, but a schema may be put together from any form and any tag,
and then both decide what it accepts.
-/

namespace ShapeCheck

/-- The names that a tagged schema goes by. -/
inductive Tag where
  | void | any | nullish | boolean
  | string | number | symbol | function | object
  | stringChecker | numberChecker | symbolChecker | functionChecker | objectChecker
  | array | record | objectOptional | union
  deriving DecidableEq

namespace Tag

/-- The spelling of a tag. -/
def label : Tag → String
  | void => "Void"
  | any => "Any"
  | nullish => "Nullish"
  | boolean => "Boolean"
  | string => "String"
  | number => "Number"
  | symbol => "Symbol"
  | function => "Function"
  | object => "Object"
  | stringChecker => "StringChecker"
  | numberChecker => "NumberChecker"
  | symbolChecker => "SymbolChecker"
  | functionChecker => "FunctionChecker"
  | objectChecker => "ObjectChecker"
  | array => "Array"
  | record => "Record"
  | objectOptional => "ObjectOptional"
  | union => "Union"

/-- The name of the constant that stands for a tag. -/
def constant : Tag → String
  | void => "VOID"
  | any => "ANY"
  | nullish => "NULLISH"
  | boolean => "BOOLEAN"
  | string => "STRING"
  | number => "NUMBER"
  | symbol => "SYMBOL"
  | function => "FUNCTION"
  | object => "OBJECT"
  | stringChecker => "STRING_CHECKER"
  | numberChecker => "NUMBER_CHECKER"
  | symbolChecker => "SYMBOL_CHECKER"
  | functionChecker => "FUNCTION_CHECKER"
  | objectChecker => "OBJECT_CHECKER"
  | array => "ARRAY"
  | record => "RECORD"
  | objectOptional => "OBJECT_OPTIONAL"
  | union => "UNION"

/-- Every tag, in order of declaration. -/
def all : List Tag :=
  [void, any, nullish, boolean, string, number, symbol, function, object,
   stringChecker, numberChecker, symbolChecker, functionChecker, objectChecker,
   array, record, objectOptional, union]

/-- The tag with a given spelling. -/
def ofLabel? (s : String) : Option Tag := all.find? fun tag => tag.label = s

end Tag

/-- The families of values that a predicate can be attached to. -/
inductive Family where
  | string | number | symbol | function | object
  deriving DecidableEq

namespace Family

/-- The tag of a bare family. -/
def tag : Family → Tag
  | string => .string
  | number => .number
  | symbol => .symbol
  | function => .function
  | object => .object

/-- The tag of a family with a predicate. -/
def checkerTag : Family → Tag
  | string => .stringChecker
  | number => .numberChecker
  | symbol => .symbolChecker
  | function => .functionChecker
  | object => .objectChecker

/-- The spelling of a family. -/
def label (f : Family) : String := f.tag.label

/-- The name of the constant that stands for a family. -/
def constant (f : Family) : String := f.tag.constant

/-- Every family, in order of declaration. -/
def all : List Family := [string, number, symbol, function, object]

/-- The family with a given spelling. -/
def ofLabel? (s : String) : Option Family := all.find? fun family => family.label = s

end Family

/-- What a tagged schema describes, over the type of the schemas that it is made of. -/
inductive Form (α : Type) where
  /-- Nothing of its own. -/
  | bare
  /-- A schema without parts, told apart by its tag. -/
  | atomic
  /-- Any value of a family. -/
  | family (f : Family)
  /-- A value of a family that a predicate accepts. -/
  | checker (f : Family) (predicate : α)
  /-- A sequence whose elements all conform to one schema. -/
  | array (element : α)
  /-- An object whose own values all conform to one schema. -/
  | record (value : α)
  /-- An object with required keys and optional keys. -/
  | optional (required optional : List (α × α))
  /-- A value that conforms to one of several schemas, tried in order. -/
  | union (alternatives : List α)

namespace Form

/-- The name of the kind of schema that a form makes. -/
def typeName {α : Type} : Form α → String
  | bare => "Descriptor"
  | atomic => "AtomicDescriptor"
  | family _ => "PrimitiveDescriptor"
  | checker .. => "CheckerDescriptor"
  | array _ => "ArrayDescriptor"
  | record _ => "RecordDescriptor"
  | optional .. => "OptionalObjectDescriptor"
  | union _ => "UnionDescriptor"

/-- Tells whether a form is complete without looking at any part of the value. -/
def isSimple {α : Type} : Form α → Bool
  | atomic | family _ | checker .. => true
  | _ => false

end Form

end ShapeCheck
