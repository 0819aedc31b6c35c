import ShapeCheck.Check
import ShapeCheck.Value.Edit
import ShapeCheck.Value.Order
import ShapeCheck.Value.Parity

/-!
# A stock of predicates

Ready-made predicates on values: constants, comparisons, tests of size, membership and
type, and predicates that fail on purpose.  A predicate that answers anything but true
rejects, and the usual way to give a reason is to answer a text instead of false.

A stock keeps the predicates under their marks and counts how often each was asked,
because some predicates answer differently from one call to the next.
-/

namespace ShapeCheck

/-- The comparisons of two values. -/
inductive Comparison where
  | less | lessOrEqual | greater | greaterOrEqual | equal | different
  deriving DecidableEq

/-- What a predicate of the stock does with its argument. -/
inductive Predicate where
  /-- Always answers the same. -/
  | constant (answer : Value)
  /-- Answers the argument. -/
  | identity
  /-- Answers the elements of a list one after another, and then its last again. -/
  | successive (answers : Value)
  /-- Compares the argument with a bound, and answers `otherwise` if that fails. -/
  | compares (c : Comparison) (bound otherwise : Value)
  /-- Tells whether the argument has at most as many elements as a bound. -/
  | lengthAtMost (bound : Value)
  /-- Tells whether the remainder of the argument by two is zero. -/
  | even
  /-- Looks for an item in the argument, and asks for it if it is not there. -/
  | requires (item : Value)
  /-- Tells whether the argument is one given value and not merely equal to it. -/
  | same (v : Value)
  /-- Answers a complaint about the argument. -/
  | complains
  /-- Tells whether the argument is of a type. -/
  | ofType (name : String)
  /-- Fails. -/
  | fails (fault : Fault)

namespace Comparison

/-- Tells whether a comparison holds. -/
def holds (c : Comparison) (a b : Value) : Except Fault Bool :=
  match c with
  | equal => a.equal b
  | different => (a.equal b).map (!·)
  | less => (a.order b).map fun o => o = some .lt
  | lessOrEqual => (a.order b).map fun o => o = some .lt || o = some .eq
  | greater => (a.order b).map fun o => o = some .gt
  | greaterOrEqual => (a.order b).map fun o => o = some .gt || o = some .eq

end Comparison

namespace Value

/-- Tells whether a value is of a type or of one that extends it; nothing if the name is
not that of a type. -/
def isInstance? (v : Value) (typeName : String) : Option Bool :=
  match typeName with
  | "object" => some true
  | "bool" => some (match v with | atom _ a => a.isBool | _ => false)
  | "int" => some (match v with | atom _ a => a.asInt?.isSome | _ => false)
  | "float" =>
    some (match v with
      | atom _ (.number (.binary _)) | atom _ (.symbol (.quantity _ _ (.binary _))) => true
      | _ => false)
  | "complex" =>
    some (match v with
      | atom _ (.number (.complex ..)) | atom _ (.symbol (.quantity _ _ (.complex ..))) => true
      | _ => false)
  | "str" => some v.asText?.isSome
  | "bytes" => some (match v with | atom _ (.bytes _) => true | _ => false)
  | "bytearray" => some (match v with | buffer .. => true | _ => false)
  | "list" => some (match v with | sequence _ .list _ => true | _ => false)
  | "tuple" => some (match v with | sequence _ .list _ => false | sequence .. => true | _ => false)
  | "dict" =>
    some (match v with
      | mapping _ kind _ => kind = .dict || kind = .ordered || kind = .defaulting
      | _ => false)
  | "set" => some (match v with | bag _ .set _ => true | _ => false)
  | "frozenset" => some (match v with | bag _ .frozenset _ => true | _ => false)
  | "range" => some (match v with | range .. => true | _ => false)
  | "type" =>
    some (match v with | classObject .. => true | native n => n.isType | _ => false)
  | _ => none

end Value

namespace Predicate

/-- The answer to a call when there were `asked` calls before it. -/
def answer (p : Predicate) (asked : Nat) (v : Value) : Except Fault Value :=
  match p with
  | constant a => .ok a
  | identity => .ok v
  | successive answers => do
    let count ← answers.length
    answers.subscript (.int (min asked (count - 1) : Nat))
  | compares c bound otherwise => do
    if ← c.holds v bound then return .bool true else return otherwise
  | lengthAtMost bound => do
    let n ← v.countedLength
    return .bool (← Comparison.lessOrEqual.holds (.int n) bound)
  | even => v.isEven.map .bool
  | requires item => do
    if ← v.contains item then return .bool true
    else return .text ((← item.plain) ++ " is required")
  | same w => .ok (.bool (v.identical w))
  | complains => do return .text ("bad " ++ (← v.plain))
  | ofType name =>
    match v.isInstance? name with
    | some b => .ok (.bool b)
    | none => .error .wrongType
  | fails fault => .error fault

/-- A predicate with every copy of a value replaced in the values that it was made
with. -/
def replaced (mark : Nat) (new : Value) (p : Predicate) : Predicate :=
  match p with
  | constant a => constant (Value.replaced mark new a)
  | successive answers => successive (Value.replaced mark new answers)
  | compares c bound otherwise =>
    compares c (Value.replaced mark new bound) (Value.replaced mark new otherwise)
  | lengthAtMost bound => lengthAtMost (Value.replaced mark new bound)
  | requires item => requires (Value.replaced mark new item)
  | same v => same (Value.replaced mark new v)
  | identity | even | complains | ofType _ | fails _ => p

end Predicate

/-- Predicates under their marks, each with the number of calls so far. -/
abbrev Stock : Type := List (Nat × Predicate × Nat)

namespace Stock

/-- Counts a call. -/
def count (stock : Stock) (mark : Nat) : Stock :=
  stock.map fun (m, p, asked) => (m, p, if m = mark then asked + 1 else asked)

/-- The predicates of a stock as the predicates of a caller.  An object that can be called
answers true. -/
def host : Host Stock where
  predicate mark v stock :=
    match stock.lookup mark with
    | none => (.error .wrongType, stock)
    | some (p, asked) => (p.answer asked v, stock.count mark)
  operation self name v :=
    match self with
    | .object .. => if name = "__call__" then .ok (.bool true) else self.applyMethod name v
    | _ => self.applyMethod name v

end Stock

end ShapeCheck
