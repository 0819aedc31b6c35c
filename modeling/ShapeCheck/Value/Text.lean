import ShapeCheck.Value.Attributes

/-!
# Text of values

Every value has two texts.  The shown text is the one it has inside a larger value:
texts are quoted and containers spell out their parts.  The plain text is the one it
has on its own: a text is itself.  A class may decide on both for its instances.

They fail on an integer with too many digits, and where the text of a class does.
-/

namespace ShapeCheck.Value

/-- Shown texts separated by commas. -/
def commaSeparated (parts : List String) : String := ", ".intercalate parts

/-- The shown text of a range: the step is left out when it is one. -/
def rangeText (start stop step : Int) : Except Fault String := do
  let ends := (← Number.intText start) ++ ", " ++ (← Number.intText stop)
  if step = 1 then return "range(" ++ ends ++ ")"
  else return "range(" ++ ends ++ ", " ++ (← Number.intText step) ++ ")"

/-- The name that a predicate goes by, or the given word when it has none. -/
def predicateName (predicate : Value) (fallback : String) : Except Fault String := do
  match ← predicate.attribute? "__name__" with
  | some (atom _ a) => a.plain
  | _ => return fallback

/-- The shown text of a native callable or type. -/
def nativeText (n : Native) : String :=
  if n.isType then "<class '" ++ n.qualifiedName ++ "'>"
  else "<built-in function " ++ n.name ++ ">"

/-- Tells whether an operation is told together with what it is bound to: one that a class
defines is, and one that comes with every value is not. -/
def tellsOwner (self : Value) (name : String) : Bool :=
  match self with
  | object _ layers _ _ | classObject _ layers =>
    (classMember? layers name).isSome || !Native.commonNames.contains name
  | _ => false

mutual

/-- The text of a value inside a larger value. -/
def shown : Value → Except Fault String
  | atom _ a => a.shown
  | sequence _ .list items => do return "[" ++ commaSeparated (← shownItems items) ++ "]"
  | sequence _ .tuple [v] => do return "(" ++ (← v.shown) ++ ",)"
  | sequence _ .tuple items => do return "(" ++ commaSeparated (← shownItems items) ++ ")"
  | sequence _ (.named name fields) items => do
    let parts := fields.zipWith (fun field part => field ++ "=" ++ part) (← shownItems items)
    return name ++ "(" ++ commaSeparated parts ++ ")"
  | mapping _ kind entries => do
    match kind with
    | .ordered =>
      if entries.isEmpty then return "OrderedDict()"
      else return "OrderedDict([" ++ commaSeparated (← shownPairs entries) ++ "])"
    | .dict | .wrapped => return "\x7b" ++ commaSeparated (← shownEntries entries) ++ "\x7d"
    | .defaulting =>
      let parts ← shownEntries entries
      return "defaultdict(<class 'list'>, \x7b" ++ commaSeparated parts ++ "\x7d)"
    | .readOnly =>
      return "mappingproxy(\x7b" ++ commaSeparated (← shownEntries entries) ++ "\x7d)"
    | .layered => return "ChainMap(\x7b" ++ commaSeparated (← shownEntries entries) ++ "\x7d)"
  | bag _ .set items => do
    if items.isEmpty then return "set()"
    else return "\x7b" ++ commaSeparated (← shownItems items) ++ "\x7d"
  | bag _ .frozenset items => do
    if items.isEmpty then return "frozenset()"
    else return "frozenset(\x7b" ++ commaSeparated (← shownItems items) ++ "\x7d)"
  | bag _ .deque items => do return "deque([" ++ commaSeparated (← shownItems items) ++ "])"
  | buffer _ bytes => .ok ("bytearray(" ++ Text.quotedBytes bytes ++ ")")
  | range _ start stop step => rangeText start stop step
  | record _ fields => do return "namespace(" ++ commaSeparated (← shownFields fields) ++ ")"
  | object _ layers _ _ =>
    (layers.reverse.findSome? Layer.shown).getD (.ok ("<" ++ className layers ++ ">"))
  | classObject _ layers => .ok ("<class 'user." ++ className layers ++ "'>")
  | slotAccessor owner name => .ok ("<member '" ++ name ++ "' of '" ++ owner ++ "' objects>")
  | computed _ | failing _ => .ok "<property object>"
  | decorated bindsClass inner => do
    return (if bindsClass then "<classmethod(" else "<staticmethod(") ++ (← inner.shown) ++ ")>"
  | function _ (some name) .. => .ok ("<function " ++ name ++ ">")
  | function _ none .. => .ok "<CallObj>"
  | method (bag _ kind _) name =>
    .ok ("<built-in method " ++ name ++ " of " ++ (bag 0 kind []).qualifiedTypeName ++ " object>")
  | method (range ..) name => .ok ("<built-in method " ++ name ++ " of range object>")
  | method (buffer ..) name => .ok ("<built-in method " ++ name ++ " of bytearray object>")
  | method (guard _ label _) name =>
    .ok ("<bound method TypeGuard." ++ name ++ " of TypeGuard(" ++ label ++ ")>")
  | method self name =>
    if self.tellsOwner name then
      self.shown.map fun owner => "<bound method " ++ name ++ " of " ++ owner ++ ">"
    else .ok ("<method-wrapper '" ++ name ++ "' of " ++ self.typeName ++ " object>")
  | applied _ callee => do return "functools.partial(" ++ (← callee.shown) ++ ")"
  | native n => .ok (nativeText n)
  | guard _ name _ => .ok ("TypeGuard(" ++ name ++ ")")
  | tagged _ tag form => shownForm tag form
  | mismatch _ m => shownMismatch m

def shownItems : List Value → Except Fault (List String)
  | [] => .ok []
  | v :: rest => do return (← v.shown) :: (← shownItems rest)

def shownEntries : List (Value × Value) → Except Fault (List String)
  | [] => .ok []
  | (k, v) :: rest => do return ((← k.shown) ++ ": " ++ (← v.shown)) :: (← shownEntries rest)

def shownPairs : List (Value × Value) → Except Fault (List String)
  | [] => .ok []
  | (k, v) :: rest => do
    return ("(" ++ (← k.shown) ++ ", " ++ (← v.shown) ++ ")") :: (← shownPairs rest)

def shownFields : List (String × Value) → Except Fault (List String)
  | [] => .ok []
  | (name, v) :: rest => do return (name ++ "=" ++ (← v.shown)) :: (← shownFields rest)

/-- The shown text of a schema: its tag, with the name of a predicate or the
alternatives of a union. -/
def shownForm (tag : Tag) : Form Value → Except Fault String
  | .checker _ p => do return "<" ++ tag.label ++ " " ++ (← p.predicateName "predicate") ++ ">"
  | .union alternatives => do
    return "<Union " ++ " | ".intercalate (← shownItems alternatives) ++ ">"
  | _ => .ok ("<" ++ tag.label ++ ">")

/-- The shown text of a mismatch: its kind and its fields. -/
def shownMismatch : Mismatch Value → Except Fault String
  | .incorrectType expected got => do
    return "IncorrectType(e='IncorrectType', expected=" ++ (← expected.shown) ++ ", got=" ++
      (← got.shown) ++ ")"
  | .incorrectValue expected got => do
    return "IncorrectValue(e='IncorrectValue', expected=" ++ (← expected.shown) ++ ", got=" ++
      (← got.shown) ++ ")"
  | .unionNoMatch errors => do
    return "UnionNoMatch(e='UnionNoMatch', errors=[" ++
      commaSeparated (← shownMismatches errors) ++ "])"
  | .arrayError error index => do
    return "ArrayError(e='ArrayError', error=" ++ (← shownMismatch error) ++ ", index=" ++
      (← Number.intText index) ++ ")"
  | .recordError error key => do
    return "RecordError(e='RecordError', error=" ++ (← shownMismatch error) ++ ", key=" ++
      (← key.shown) ++ ")"
  | .objectError error key => do
    return "ObjectError(e='ObjectError', error=" ++ (← shownMismatch error) ++ ", key=" ++
      (← key.shown) ++ ")"
  | .requiredKeyMissing key => do
    return "ObjectRequiredKeyMissing(e='ObjectRequiredKeyMissing', key=" ++ (← key.shown) ++ ")"
  | .illegalExtraKey key => do
    return "ObjectIllegalExtraKey(e='ObjectIllegalExtraKey', key=" ++ (← key.shown) ++ ")"
  | .checkerFailed none => .ok "CheckerFailed(e='CheckerFailed', result=False)"
  | .checkerFailed (some reason) =>
    .ok ("CheckerFailed(e='CheckerFailed', result=" ++ Text.quoted reason ++ ")")

def shownMismatches : List (Mismatch Value) → Except Fault (List String)
  | [] => .ok []
  | m :: rest => do return (← shownMismatch m) :: (← shownMismatches rest)

end

/-- The symbol that stands for a tag. -/
def ofTag (tag : Tag) : Value := atom 0 (.symbol (.textual "Tag" tag.constant tag.label))

/-- The symbol that stands for a family. -/
def ofFamily (f : Family) : Value := atom 0 (.symbol (.textual "Family" f.constant f.label))

/-- The parts of a schema form under their names. -/
def formFields : Form Value → List (String × Value)
  | .bare | .atomic => []
  | .family f => [("family", ofFamily f)]
  | .checker f p => [("family", ofFamily f), ("predicate", p)]
  | .array e => [("element", e)]
  | .record v => [("value_type", v)]
  | .optional required optional => [("required", dict required), ("optional", dict optional)]
  | .union alternatives => [("alternatives", tuple alternatives)]

/-- The plain text of a schema: its tag and its parts, each after its name. -/
def taggedText (tag : Tag) (form : Form Value) : Except Fault String := do
  return " ".intercalate (← shownFields (("tag", ofTag tag) :: formFields form))

/-- The plain text of a value that is not a mismatch. -/
def ownText : Value → Except Fault String
  | atom _ a => a.plain
  | mapping _ .readOnly entries => (dict entries).shown
  | v@(object _ layers _ _) =>
    match layers.reverse.findSome? Layer.text with
    | some answer => answer
    | none => v.shown
  | tagged _ tag form => taggedText tag form
  | v => v.shown

end ShapeCheck.Value
