import ShapeCheck.Value.Equal

/-!
# Order of values

Numbers are ordered by what they denote, texts and byte strings character by
character, and sequences of one kind element by element.  Sets are ordered by
inclusion.  Values of any other kinds, and of different kinds, have no order.
-/

namespace ShapeCheck.Value

/-- The order of two lists of bytes. -/
def orderBytes : List UInt8 → List UInt8 → Ordering
  | [], [] => .eq
  | [], _ :: _ => .lt
  | _ :: _, [] => .gt
  | a :: as, b :: bs => if a < b then .lt else if b < a then .gt else orderBytes as bs

/-- The order of two texts by code points. -/
def orderTexts (s t : String) : Ordering := if s < t then .lt else if s = t then .eq else .gt

mutual

/-- The order of two values; no ordering means that neither precedes the other. -/
def order : Value → Value → Except Fault (Option Ordering)
  | atom _ (.bytes bs), atom _ (.bytes bs') => .ok (some (orderBytes bs bs'))
  | atom _ (.bytes bs), buffer _ bs' => .ok (some (orderBytes bs bs'))
  | buffer _ bs, atom _ (.bytes bs') => .ok (some (orderBytes bs bs'))
  | buffer _ bs, buffer _ bs' => .ok (some (orderBytes bs bs'))
  | atom _ a, atom _ b =>
    match a.asText?, b.asText?, a.asNumber?, b.asNumber? with
    | some s, some t, _, _ => .ok (some (orderTexts s t))
    | _, _, some m, some n => m.order n
    | _, _, _, _ => .error .wrongType
  | sequence _ .list items, sequence _ .list items' => orderItems items items'
  | sequence _ .list _, _ => .error .wrongType
  | _, sequence _ .list _ => .error .wrongType
  | sequence _ _ items, sequence _ _ items' => orderItems items items'
  | bag _ .deque items, bag _ .deque items' => orderItems items items'
  | bag _ .deque _, _ => .error .wrongType
  | _, bag _ .deque _ => .error .wrongType
  | bag _ _ items, bag _ _ items' => do
    match ← allFound items items', ← allFound items' items with
    | true, true => return some .eq
    | true, false => return some .lt
    | false, true => return some .gt
    | false, false => return none
  | _, _ => .error .wrongType
termination_by structural a => a

/-- The order of two lists: that of the first elements that differ. -/
def orderItems : List Value → List Value → Except Fault (Option Ordering)
  | [], [] => .ok (some .eq)
  | [], _ :: _ => .ok (some .lt)
  | _ :: _, [] => .ok (some .gt)
  | a :: as, b :: bs => do
    if ← orIdentical a b (equal a b) then orderItems as bs else order a b
termination_by structural as => as

end

/-- Tells whether a value precedes another. -/
def precedes (a b : Value) : Except Fault Bool := do
  return (← order a b) = some .lt

end ShapeCheck.Value
