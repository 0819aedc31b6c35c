import ShapeCheck.Value.Equal

/-!
# Entries of a mapping

Operations on the entries of a mapping, which are kept in order of first insertion
under keys that are told apart by identity or equality.  Storing under a present key
keeps its place and the key that was there first, and replaces the value.
-/

namespace ShapeCheck.Value

/-- The entry under a key. -/
def entryAt? (entries : List (Value × Value)) (key : Value) : Option (Value × Value) :=
  entries.find? fun e => sameKey e.1 key

/-- Tells whether a key is declared by some entry. -/
def declares (entries : List (Value × Value)) (key : Value) : Bool :=
  entries.any fun e => sameKey e.1 key

/-- Stores a value under a key. -/
def insertEntry (entries : List (Value × Value)) (key v : Value) : List (Value × Value) :=
  match entries with
  | [] => [(key, v)]
  | e :: rest => if sameKey e.1 key then (e.1, v) :: rest else e :: insertEntry rest key v

/-- Stores all entries of a second list, in order. -/
def mergeEntries (entries others : List (Value × Value)) : List (Value × Value) :=
  others.foldl (fun merged e => insertEntry merged e.1 e.2) entries

/-- The entries of a mapping that is made from a list of pairs. -/
def collectEntries (pairs : List (Value × Value)) : List (Value × Value) :=
  mergeEntries [] pairs

/-- Removes the entry under a key. -/
def eraseEntry (entries : List (Value × Value)) (key : Value) : List (Value × Value) :=
  match entries with
  | [] => []
  | e :: rest => if sameKey e.1 key then rest else e :: eraseEntry rest key

end ShapeCheck.Value
