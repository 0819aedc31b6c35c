import ShapeCheck.Mismatch.Listing
import ShapeCheck.Value.Order

/-!
# Values as JSON text

Sequences are written as arrays and the ordinary kinds of mapping as objects, whose
entries may be sorted.  A value that JSON has no notation for is written as its plain
text in quotes, or refused.  Keys of objects have no such fallback: a key that is not
a text, a number or a constant is refused or, on request, left out with its entry.
-/

namespace ShapeCheck.Json

/-- How JSON text is laid out and what it may hold. -/
structure Options where
  /-- What each level of nesting adds in front of a line; without it all is one line. -/
  indent : Option String
  itemSeparator : String
  keySeparator : String
  sortKeys : Bool
  /-- Escape every character beyond ASCII. -/
  ascii : Bool
  /-- Allow the numbers that JSON has no notation for. -/
  special : Bool
  /-- Leave out entries whose key cannot be written. -/
  skipKeys : Bool
  /-- Write values without a notation as their plain text. -/
  fallback : Bool

namespace Options

/-- One line, with a blank after every separator. -/
def standard : Options := ⟨none, ", ", ": ", false, true, true, false, true⟩

/-- The start of a new line at a level of nesting, if lines are broken at all. -/
def newLine (o : Options) (level : Nat) : String :=
  match o.indent with
  | none => ""
  | some step => "\n" ++ String.join (List.replicate level step)

/-- The text between two items at a level of nesting. -/
def separator (o : Options) (level : Nat) : String := o.itemSeparator ++ o.newLine level

/-- Items between brackets; brackets around no items hold nothing. -/
def bracketed (o : Options) (level : Nat) (first last : String) (items : List String) : String :=
  first ++ o.newLine (level + 1) ++ (o.separator (level + 1)).intercalate items ++
    o.newLine level ++ last

end Options

/-- The name under which the type of a refused key is told: text on one line is told
from the full name of the type. -/
def refusedKey (o : Options) (key : Value) : Fault :=
  .keyNotEncodable (if o.indent.isNone then key.qualifiedTypeName else key.typeName)

/-- The text that a key becomes, or nothing if its entry is left out. -/
def keyText (o : Options) (key : Value) : Except Fault (Option String) :=
  let written := match key with
    | .atom _ a => keyText? o.special a
    | _ => none
  match written with
  | some s => s.map some
  | none => if o.skipKeys then .ok none else .error (refusedKey o key)

/-- Puts an entry in front of the first one that its key precedes. -/
def insertSorted {α : Type} (entry : Value × α) : List (Value × α) → Except Fault (List (Value × α))
  | [] => .ok [entry]
  | other :: rest => do
    if ← entry.1.precedes other.1 then return entry :: other :: rest
    else return other :: (← insertSorted entry rest)

/-- Sorts entries by key. -/
def sortEntries {α : Type} (entries : List (Value × α)) : Except Fault (List (Value × α)) :=
  entries.foldlM (fun sorted entry => insertSorted entry sorted) []

/-- The text of the entries of an object, given the texts of the values. -/
def joinEntries (o : Options) (level : Nat) :
    List (Value × Except Fault String) → Except Fault (List String)
  | [] => .ok []
  | (key, written) :: rest => do
    match ← keyText o key with
    | none => joinEntries o level rest
    | some k =>
      let entry := quote o.ascii k ++ o.keySeparator ++ (← written)
      return entry :: (← joinEntries o level rest)

/-- The text of an object, given the texts of the values. -/
def objectText (o : Options) (level : Nat) (entries : List (Value × Except Fault String)) :
    Except Fault String := do
  if entries.isEmpty then return "\x7b\x7d"
  let entries ← if o.sortKeys then sortEntries entries else pure entries
  return o.bracketed level "\x7b" "\x7d" (← joinEntries o level entries)

/-- The text of a value that JSON has no notation for. -/
def fallbackText (o : Options) (v : Value) : Except Fault String :=
  if o.fallback then v.plain.map (quote o.ascii) else .error (.notEncodable v.typeName)

mutual

/-- The JSON text of a value at a level of nesting. -/
def writeAt (o : Options) (level : Nat) : Value → Except Fault String
  | .atom mark a =>
    match atomText? o.ascii o.special a with
    | some written => written
    | none => fallbackText o (.atom mark a)
  | .sequence _ _ items => do
    if items.isEmpty then return "[]"
    return o.bracketed level "[" "]" (← writeItems o (level + 1) items)
  | .mapping mark kind entries =>
    match kind with
    | .dict | .ordered | .defaulting => objectText o level (writeEntries o (level + 1) entries)
    | _ => fallbackText o (.mapping mark kind entries)
  | v => fallbackText o v
termination_by structural v => v

def writeItems (o : Options) (level : Nat) : List Value → Except Fault (List String)
  | [] => .ok []
  | v :: rest => do return (← writeAt o level v) :: (← writeItems o level rest)
termination_by structural items => items

def writeEntries (o : Options) (level : Nat) :
    List (Value × Value) → List (Value × Except Fault String)
  | [] => []
  | (k, v) :: rest => (k, writeAt o level v) :: writeEntries o level rest
termination_by structural entries => entries

end

/-- The JSON text of a value. -/
def write (o : Options) (v : Value) : Except Fault String := writeAt o 0 v

end ShapeCheck.Json
