import ShapeCheck.Value.Members

/-!
# Elements of a value

What a value yields when it is gone through, how many elements that are, whether
something is among them, and the element under a subscript.  A mapping yields its
keys, a text its characters, and a tagged schema or a mismatch its named parts.
-/

namespace ShapeCheck.Value

/-- A mismatch field by field, after its kind. -/
def problemFields (m : Problem) : List (String × Value) :=
  ("e", text m.kind) ::
    match m with
    | .incorrectType expected got | .incorrectValue expected got =>
      [("expected", expected), ("got", got)]
    | .unionNoMatch errors => [("errors", list (errors.map (mismatch 0)))]
    | .arrayError error index => [("error", mismatch 0 error), ("index", int index)]
    | .recordError error key | .objectError error key =>
      [("error", mismatch 0 error), ("key", key)]
    | .requiredKeyMissing key | .illegalExtraKey key => [("key", key)]
    | .checkerFailed none => [("result", bool false)]
    | .checkerFailed (some reason) => [("result", text reason)]

/-- The named parts of a tagged schema or a mismatch. -/
def parts : Value → List (String × Value)
  | tagged _ tag form => ("tag", ofTag tag) :: formFields form
  | mismatch _ m => problemFields m
  | _ => []

/-- The flag unions of one bit each that make up a flag union. -/
def singleFlags (owner : String) (names : List String) (bits : Nat) : List Value :=
  let weights := ((List.range (bits.log2 + 1)).map (Nat.pow 2)).filter fun w => bits / w % 2 = 1
  names.zipWith (fun name w => atom 0 (.symbol (.flags owner [name] w))) weights

/-- The integers of a range. -/
def rangeItems (start stop step : Int) : List Value :=
  (List.range (rangeLength start stop step)).map fun (i : Nat) => int (start + step * i)

/-- The characters of a text as texts. -/
def characters (s : String) : List Value := s.toList.map fun c => text c.toString

/-- Bytes as integers. -/
def byteItems (bytes : List UInt8) : List Value := bytes.map fun b => int b.toNat

/-- The elements that a value yields. -/
def elements (v : Value) : Except Fault (List Value) :=
  match v with
  | atom _ (.bytes bs) => .ok (byteItems bs)
  | atom _ (.symbol (.flags owner names bits)) => .ok (singleFlags owner names bits)
  | atom _ a =>
    match a.asText? with
    | some s => .ok (characters s)
    | none => .error .wrongType
  | sequence _ _ items | bag _ _ items => .ok items
  | mapping _ _ entries => .ok (entries.map Prod.fst)
  | buffer _ bytes => .ok (byteItems bytes)
  | range _ start stop step => .ok (rangeItems start stop step)
  | tagged .. | mismatch .. => .ok (v.parts.map fun (name, part) => tuple [text name, part])
  | _ => .error .wrongType

/-- The number of elements of a value that knows it. -/
def length (v : Value) : Except Fault Nat :=
  match v with
  | atom _ (.bytes bs) => .ok bs.length
  | atom _ (.symbol (.flags _ names _)) => .ok names.length
  | atom _ a =>
    match a.asText? with
    | some s => .ok s.length
    | none => .error .wrongType
  | sequence _ _ items | bag _ _ items => .ok items.length
  | mapping _ _ entries => .ok entries.length
  | buffer _ bytes => .ok bytes.length
  | range _ start stop step => .ok (rangeLength start stop step)
  | _ => .error .wrongType

def isInside (part : List Char) : List Char → Bool
  | [] => part.isEmpty
  | c :: rest => part.isPrefixOf (c :: rest) || isInside part rest

def isInsideBytes (part : List UInt8) : List UInt8 → Bool
  | [] => part.isEmpty
  | b :: rest => part.isPrefixOf (b :: rest) || isInsideBytes part rest

/-- The byte that an integer stands for. -/
def byte (v : Value) : Except Fault UInt8 :=
  match v with
  | atom _ a =>
    match a.asInt? with
    | some i =>
      if 0 ≤ i && i < 256 then .ok (UInt8.ofNat i.toNat)
      else .error (.badValue "byte must be in range(0, 256)")
    | none => .error .wrongType
  | _ => .error .wrongType

/-- Tells whether a byte, or a run of bytes, is found in a byte string. -/
def bytesContain (bytes : List UInt8) (item : Value) : Except Fault Bool :=
  match item with
  | atom _ (.bytes part) | buffer _ part => .ok (isInsideBytes part bytes)
  | item => item.byte.map bytes.contains

/-- Tells whether something is among the elements of a value: a key of a mapping, a
part of a text, an element of anything else. -/
def contains (v item : Value) : Except Fault Bool :=
  match v with
  | mapping _ _ entries =>
    if item.isHashable then .ok (declares entries item) else .error .wrongType
  | bag _ .set items | bag _ .frozenset items =>
    if item.isHashable then foundIn item items else .error .wrongType
  | atom _ (.bytes bytes) | buffer _ bytes => bytesContain bytes item
  | atom _ (.symbol (.flags owner _ bits)) =>
    match item with
    | atom _ (.symbol (.flags owner' _ bits')) =>
      if owner = owner' then .ok (bits' &&& bits = bits') else .error .wrongType
    | _ => .error .wrongType
  | atom _ a =>
    match a.asText?, item.asText? with
    | some s, some part => .ok (isInside part.toList s.toList)
    | _, _ => .error .wrongType
  | v => do foundIn item (← v.elements)

/-- The element of a value under a subscript. -/
def subscript (v key : Value) : Except Fault Value :=
  match v with
  | mapping .. | sequence .. => v.get key
  | bag _ .deque items => (list items).get key
  | buffer .. | range .. => do (list (← v.elements)).get key
  | atom _ (.symbol (.flags ..)) => .error .wrongType
  | atom .. => do (list (← v.elements)).get key
  | _ => .error .wrongType

/-- The key and the value of one entry that is given as a pair. -/
def pairOf (v : Value) : Except Fault (Value × Value) :=
  match v.elements with
  | .ok [key, item] => if key.isHashable then .ok (key, item) else .error .wrongType
  | .ok _ => .error .notAPair
  | .error fault => .error fault

/-- The entries that a value gives to a mapping: its own if it is one, otherwise its
elements as pairs. -/
def entriesOf (v : Value) : Except Fault (List (Value × Value)) :=
  match v with
  | mapping _ _ entries => .ok entries
  | v => do (← v.elements).mapM pairOf

end ShapeCheck.Value
