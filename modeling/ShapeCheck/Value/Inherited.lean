import ShapeCheck.Value

/-!
# Names that come with a type

Every value has attributes by its type besides those that are given to it: the operations
of the type, and what it tells about itself.  Here are their names, type by type.
-/

namespace ShapeCheck

namespace Native

/-- The names that every value has by its type, apart from its class and its description. -/
def commonNames : List String :=
  ["__delattr__", "__dir__", "__eq__", "__format__", "__ge__", "__getattribute__", "__getstate__",
   "__gt__", "__hash__", "__init__", "__init_subclass__", "__le__", "__lt__", "__ne__", "__new__",
   "__reduce__", "__reduce_ex__", "__repr__", "__setattr__", "__sizeof__", "__str__",
   "__subclasshook__"]

/-- The names that values of a type have besides. -/
def memberNames : Native → List String
  | bool | int =>
    ["__abs__", "__add__", "__and__", "__bool__", "__ceil__", "__divmod__", "__float__",
     "__floor__", "__floordiv__", "__getnewargs__", "__index__", "__int__", "__invert__",
     "__lshift__", "__mod__", "__mul__", "__neg__", "__or__", "__pos__", "__pow__", "__radd__",
     "__rand__", "__rdivmod__", "__rfloordiv__", "__rlshift__", "__rmod__", "__rmul__", "__ror__",
     "__round__", "__rpow__", "__rrshift__", "__rshift__", "__rsub__", "__rtruediv__", "__rxor__",
     "__sub__", "__truediv__", "__trunc__", "__xor__", "as_integer_ratio", "bit_count",
     "bit_length", "conjugate", "denominator", "from_bytes", "imag", "numerator", "real",
     "to_bytes"]
  | float =>
    ["__abs__", "__add__", "__bool__", "__ceil__", "__divmod__", "__float__", "__floor__",
     "__floordiv__", "__getformat__", "__getnewargs__", "__int__", "__mod__", "__mul__",
     "__neg__", "__pos__", "__pow__", "__radd__", "__rdivmod__", "__rfloordiv__", "__rmod__",
     "__rmul__", "__round__", "__rpow__", "__rsub__", "__rtruediv__", "__sub__", "__truediv__",
     "__trunc__", "as_integer_ratio", "conjugate", "fromhex", "hex", "imag", "is_integer", "real"]
  | str =>
    ["__add__", "__contains__", "__getitem__", "__getnewargs__", "__iter__", "__len__", "__mod__",
     "__mul__", "__rmod__", "__rmul__", "capitalize", "casefold", "center", "count", "encode",
     "endswith", "expandtabs", "find", "format", "format_map", "index", "isalnum", "isalpha",
     "isascii", "isdecimal", "isdigit", "isidentifier", "islower", "isnumeric", "isprintable",
     "isspace", "istitle", "isupper", "join", "ljust", "lower", "lstrip", "maketrans",
     "partition", "removeprefix", "removesuffix", "replace", "rfind", "rindex", "rjust",
     "rpartition", "rsplit", "rstrip", "split", "splitlines", "startswith", "strip", "swapcase",
     "title", "translate", "upper", "zfill"]
  | list =>
    ["__add__", "__class_getitem__", "__contains__", "__delitem__", "__getitem__", "__iadd__",
     "__imul__", "__iter__", "__len__", "__mul__", "__reversed__", "__rmul__", "__setitem__",
     "append", "clear", "copy", "count", "extend", "index", "insert", "pop", "remove", "reverse",
     "sort"]
  | dict =>
    ["__class_getitem__", "__contains__", "__delitem__", "__getitem__", "__ior__", "__iter__",
     "__len__", "__or__", "__reversed__", "__ror__", "__setitem__", "clear", "copy", "fromkeys",
     "get", "items", "keys", "pop", "popitem", "setdefault", "update", "values"]
  | set =>
    ["__and__", "__class_getitem__", "__contains__", "__iand__", "__ior__", "__isub__",
     "__iter__", "__ixor__", "__len__", "__or__", "__rand__", "__ror__", "__rsub__", "__rxor__",
     "__sub__", "__xor__", "add", "clear", "copy", "difference", "difference_update", "discard",
     "intersection", "intersection_update", "isdisjoint", "issubset", "issuperset", "pop",
     "remove", "symmetric_difference", "symmetric_difference_update", "union", "update"]
  | frozenset =>
    ["__and__", "__class_getitem__", "__contains__", "__iter__", "__len__", "__or__", "__rand__",
     "__ror__", "__rsub__", "__rxor__", "__sub__", "__xor__", "copy", "difference",
     "intersection", "isdisjoint", "issubset", "issuperset", "symmetric_difference", "union"]
  | deque =>
    ["__add__", "__class_getitem__", "__contains__", "__copy__", "__delitem__", "__getitem__",
     "__iadd__", "__imul__", "__iter__", "__len__", "__mul__", "__reversed__", "__rmul__",
     "__setitem__", "append", "appendleft", "clear", "copy", "count", "extend", "extendleft",
     "index", "insert", "maxlen", "pop", "popleft", "remove", "reverse", "rotate"]
  | bytearray =>
    ["__add__", "__alloc__", "__contains__", "__delitem__", "__getitem__", "__iadd__", "__imul__",
     "__iter__", "__len__", "__mod__", "__mul__", "__rmod__", "__rmul__", "__setitem__", "append",
     "capitalize", "center", "clear", "copy", "count", "decode", "endswith", "expandtabs",
     "extend", "find", "fromhex", "hex", "index", "insert", "isalnum", "isalpha", "isascii",
     "isdigit", "islower", "isspace", "istitle", "isupper", "join", "ljust", "lower", "lstrip",
     "maketrans", "partition", "pop", "remove", "removeprefix", "removesuffix", "replace",
     "reverse", "rfind", "rindex", "rjust", "rpartition", "rsplit", "rstrip", "split",
     "splitlines", "startswith", "strip", "swapcase", "title", "translate", "upper", "zfill"]
  | range =>
    ["__bool__", "__contains__", "__getitem__", "__iter__", "__len__", "__reversed__", "count",
     "index", "start", "step", "stop"]
  | _ => []

/-- The names that types themselves have. -/
def typeNames : List String :=
  ["__annotations__", "__base__", "__bases__", "__basicsize__", "__dictoffset__", "__flags__",
   "__instancecheck__", "__itemsize__", "__mro__", "__or__", "__prepare__", "__qualname__",
   "__ror__", "__subclasscheck__", "__subclasses__", "__text_signature__", "__weakrefoffset__",
   "mro"]

end Native

namespace Value

/-- The names that predicates have, apart from those that every callable has. -/
def functionNames : List String :=
  ["__annotations__", "__builtins__", "__closure__", "__code__", "__defaults__", "__get__",
   "__globals__", "__kwdefaults__", "__qualname__"]

/-- The names that bound operations have besides those of predicates. -/
def boundNames : List String := ["__func__", "__self__"]

/-- The names that operations which are always there have besides those of every callable. -/
def nativeNames : List String := ["__qualname__", "__self__", "__text_signature__"]

/-- The names that callables which pass their argument on have besides. -/
def appliedNames : List String :=
  ["__class_getitem__", "__setstate__", "__vectorcalloffset__", "args", "func", "keywords"]

/-- The names that computed class attributes have. -/
def computedNames : List String :=
  ["__delete__", "__get__", "__isabstractmethod__", "__set__", "__set_name__", "deleter", "fdel",
   "fget", "fset", "getter", "setter"]

/-- The names that accessors of slots have. -/
def accessorNames : List String :=
  ["__delete__", "__get__", "__name__", "__objclass__", "__qualname__", "__set__"]

/-- The names that decorated class attributes have. -/
def decoratedNames : List String :=
  ["__annotations__", "__dict__", "__get__", "__isabstractmethod__", "__module__"]

/-- The type of a value that has no classes of its own. -/
def typeOf : Value → Native
  | bag _ .set _ => .set
  | bag _ .frozenset _ => .frozenset
  | bag _ .deque _ => .deque
  | buffer .. => .bytearray
  | range .. => .range
  | record .. => .namespaceType
  | sequence _ .list _ => .list
  | mapping _ .dict _ => .dict
  | v => .otherType v.typeName v.qualifiedTypeName

/-- The names that a value has by its type, apart from those that tell about the value. -/
def inheritedNames (v : Value) : List String :=
  Native.commonNames ++
    match v with
    | function _ (some _) .. => functionNames
    | method (bag ..) _ | method (range ..) _ | method (buffer ..) _ => nativeNames
    | method .. => functionNames ++ boundNames
    | applied .. => appliedNames
    | native n => if n.isType then Native.typeNames ++ n.memberNames else nativeNames
    | guard .. => ["__weakref__"]
    | computed _ | failing _ => computedNames
    | slotAccessor .. => accessorNames
    | decorated bindsClass _ => if bindsClass then decoratedNames else "__call__" :: decoratedNames
    | v => (typeOf v).memberNames

end Value

end ShapeCheck
