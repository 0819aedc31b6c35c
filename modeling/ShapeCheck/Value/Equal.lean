import ShapeCheck.Value

/-!
# Identity and equality

Two values are identical when they are copies of one value.  Equality compares
content: containers element by element, where an element that is identical to its
counterpart needs no further comparison, and numbers by what they denote.  Objects,
classes, callables and guards are equal only to themselves.

Equality may have no answer, because a signaling decimal refuses to be compared.  A
value that can be a key of a mapping is hashable, and among hashable values equality
always has an answer.
-/

namespace ShapeCheck.Value

/-- Identity: the same value, not merely an equal one. -/
def identical : Value → Value → Bool
  | atom m a, atom n b => a = b && (m = n || a.isShared)
  | sequence _ .tuple [], sequence _ .tuple [] => true
  | sequence m _ _, sequence n _ _ => m = n
  | mapping m _ _, mapping n _ _ => m = n
  | bag m _ _, bag n _ _ => m = n
  | buffer m _, buffer n _ => m = n
  | range m _ _ _, range n _ _ _ => m = n
  | record m _, record n _ => m = n
  | object m _ _ _, object n _ _ _ => m = n
  | classObject m _, classObject n _ => m = n
  | slotAccessor owner name, slotAccessor owner' name' => owner = owner' && name = name'
  | function m .., function n .. => m = n
  | applied m _, applied n _ => m = n
  | native f, native g => f = g
  | guard m _ _, guard n _ _ => m = n
  | tagged m tag _, tagged n tag' _ => m = n && tag = tag'
  | mismatch m _, mismatch n _ => m = n
  | _, _ => false

/-- The equality of two ranges: that of the sequences they stand for. -/
def equalRanges (start stop step start' stop' step' : Int) : Bool :=
  let n := rangeLength start stop step
  n = rangeLength start' stop' step' &&
    (n = 0 || (start = start' && (n = 1 || step = step')))

/-- The answer for a pair of parts: identical parts need no comparison. -/
def orIdentical (a b : Value) (answer : Except Fault Bool) : Except Fault Bool :=
  if identical a b then .ok true else answer

mutual

/-- Equality of values. -/
def equal : Value → Value → Except Fault Bool
  | atom _ a, atom _ b => a.equal b
  | atom _ (.bytes bs), buffer _ bytes => .ok (bs = bytes)
  | buffer _ bytes, atom _ (.bytes bs) => .ok (bytes = bs)
  | buffer _ bytes, buffer _ bytes' => .ok (bytes = bytes')
  | sequence _ .list items, sequence _ .list items' =>
    if items.length = items'.length then equalItems items items' else .ok false
  | sequence _ .list _, sequence _ _ _ => .ok false
  | sequence _ _ _, sequence _ .list _ => .ok false
  | sequence _ _ items, sequence _ _ items' => equalItems items items'
  | mapping _ kind entries, mapping _ kind' entries' => do
    if entries.length ≠ entries'.length then return false
    if kind = .ordered && kind' = .ordered then equalInOrder entries entries'
    else equalEntries entries entries'
  | bag _ .deque items, bag _ .deque items' =>
    if items.length = items'.length then equalItems items items' else .ok false
  | bag _ .deque _, bag _ _ _ => .ok false
  | bag _ _ _, bag _ .deque _ => .ok false
  | bag _ _ items, bag _ _ items' =>
    if items.length = items'.length then allFound items items' else .ok false
  | range _ start stop step, range _ start' stop' step' =>
    .ok (equalRanges start stop step start' stop' step')
  | record _ fields, record _ fields' =>
    if fields.length = fields'.length then equalFields fields fields' else .ok false
  | method self name, method self' name' => .ok (name = name' && identical self self')
  | tagged _ tag form, tagged _ tag' form' =>
    if tag = tag' then equalForms form form' else .ok false
  | mismatch _ m, mismatch _ m' => equalMismatches m m'
  | a, b => .ok (identical a b)
termination_by structural a => a

/-- Element-wise equality; identical elements need no comparison. -/
def equalItems : List Value → List Value → Except Fault Bool
  | [], [] => .ok true
  | a :: as, b :: bs => do
    if ← orIdentical a b (equal a b) then equalItems as bs else return false
  | _, _ => .ok false
termination_by structural as => as

/-- Tells whether each element of the first list is found in the second. -/
def allFound : List Value → List Value → Except Fault Bool
  | [], _ => .ok true
  | a :: as, bs => do
    if ← bs.anyM fun b => orIdentical b a (equal a b) then allFound as bs else return false
termination_by structural as => as

/-- Tells whether each entry of the first list has an equal entry in the second. -/
def equalEntries : List (Value × Value) → List (Value × Value) → Except Fault Bool
  | [], _ => .ok true
  | (k, v) :: rest, others => do
    match ← others.findM? fun e => orIdentical e.1 k (equal k e.1) with
    | none => return false
    | some e =>
      if ← orIdentical v e.2 (equal v e.2) then equalEntries rest others else return false
termination_by structural entries => entries

/-- Tells whether two lists of entries have equal keys in the same order, and equal
values under them. -/
def equalInOrder : List (Value × Value) → List (Value × Value) → Except Fault Bool
  | [], [] => .ok true
  | (k, v) :: rest, (k', v') :: rest' => do
    if !(← equal k k') then return false
    if ← orIdentical v v' (equal v v') then equalInOrder rest rest' else return false
  | _, _ => .ok false
termination_by structural entries => entries

/-- Tells whether each field of the first list has an equal field in the second. -/
def equalFields : List (String × Value) → List (String × Value) → Except Fault Bool
  | [], _ => .ok true
  | (name, v) :: rest, others => do
    match others.lookup name with
    | none => return false
    | some w =>
      if ← orIdentical v w (equal v w) then equalFields rest others else return false
termination_by structural fields => fields

def equalForms : Form Value → Form Value → Except Fault Bool
  | .bare, .bare => .ok true
  | .atomic, .atomic => .ok true
  | .family f, .family f' => .ok (f = f')
  | .checker f p, .checker f' p' =>
    if f = f' then orIdentical p p' (equal p p') else .ok false
  | .array e, .array e' => orIdentical e e' (equal e e')
  | .record v, .record v' => orIdentical v v' (equal v v')
  | .optional required optional, .optional required' optional' => do
    if required.length ≠ required'.length || optional.length ≠ optional'.length then return false
    if !(← equalEntries required required') then return false
    equalEntries optional optional'
  | .union alternatives, .union alternatives' => equalItems alternatives alternatives'
  | _, _ => .ok false
termination_by structural form => form

def equalMismatches : Mismatch Value → Mismatch Value → Except Fault Bool
  | .incorrectType expected got, .incorrectType expected' got' => do
    if !(← orIdentical expected expected' (equal expected expected')) then return false
    orIdentical got got' (equal got got')
  | .incorrectValue expected got, .incorrectValue expected' got' => do
    if !(← orIdentical expected expected' (equal expected expected')) then return false
    orIdentical got got' (equal got got')
  | .unionNoMatch errors, .unionNoMatch errors' =>
    if errors.length = errors'.length then equalMismatchLists errors errors' else .ok false
  | .arrayError error index, .arrayError error' index' => do
    if !(← equalMismatches error error') then return false
    return index = index'
  | .recordError error key, .recordError error' key' => do
    if !(← equalMismatches error error') then return false
    orIdentical key key' (equal key key')
  | .objectError error key, .objectError error' key' => do
    if !(← equalMismatches error error') then return false
    orIdentical key key' (equal key key')
  | .requiredKeyMissing key, .requiredKeyMissing key' =>
    orIdentical key key' (equal key key')
  | .illegalExtraKey key, .illegalExtraKey key' =>
    orIdentical key key' (equal key key')
  | .checkerFailed reason, .checkerFailed reason' => .ok (reason = reason')
  | _, _ => .ok false
termination_by structural m => m

def equalMismatchLists : List (Mismatch Value) → List (Mismatch Value) → Except Fault Bool
  | [], [] => .ok true
  | m :: ms, m' :: ms' => do
    if !(← equalMismatches m m') then return false
    equalMismatchLists ms ms'
  | _, _ => .ok false
termination_by structural ms => ms

end

mutual

/-- Tells whether a value can be a key of a mapping: its content cannot change, and
neither can that of its parts. -/
def isHashable : Value → Bool
  | atom _ (.number n) | atom _ (.symbol (.quantity _ _ n)) => !n.isSignaling
  | sequence _ .list _ => false
  | sequence _ _ items => allHashable items
  | mapping .. | buffer .. | record .. => false
  | bag _ kind _ => kind = .frozenset
  | tagged _ _ form => isHashableForm form
  | mismatch _ m => isHashableMismatch m
  | _ => true

/-- Tells whether every value of a list is hashable. -/
def allHashable : List Value → Bool
  | [] => true
  | v :: rest => v.isHashable && allHashable rest

def isHashableForm : Form Value → Bool
  | .bare | .atomic | .family _ => true
  | .checker _ p => p.isHashable
  | .array e => e.isHashable
  | .record v => v.isHashable
  | .optional .. => false
  | .union alternatives => allHashable alternatives

def isHashableMismatch : Mismatch Value → Bool
  | .incorrectType expected got => expected.isHashable && got.isHashable
  | .incorrectValue expected got => expected.isHashable && got.isHashable
  | .unionNoMatch _ => false
  | .arrayError error _ => isHashableMismatch error
  | .recordError error key => isHashableMismatch error && key.isHashable
  | .objectError error key => isHashableMismatch error && key.isHashable
  | .requiredKeyMissing key => key.isHashable
  | .illegalExtraKey key => key.isHashable
  | .checkerFailed _ => true

end

/-- Tells whether two values are the same key: identical, or equal. -/
def sameKey (stored key : Value) : Bool :=
  identical stored key || (match stored.equal key with | .ok b => b | .error _ => false)

/-- Tells whether a value is found in a list, by identity or equality. -/
def foundIn (v : Value) (items : List Value) : Except Fault Bool :=
  items.anyM fun item => orIdentical item v (equal item v)

end ShapeCheck.Value
