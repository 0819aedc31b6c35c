import ShapeCheck.Value.Equal

/-!
# Families and literals

The tests that need no look at the parts of a value: whether it belongs to a family,
and whether an atom matches a literal.

Any two binary values that are not numbers match, even if one of them is a symbol.
Otherwise truth values and symbols match only themselves, even where numbers or texts
would be equal to them.
-/

namespace ShapeCheck

namespace Family

/-- Tells whether a value belongs to a family.  Truth values are not numbers here. -/
def accepts (f : Family) (v : Value) : Bool :=
  match f, v with
  | string, v => v.asText?.isSome
  | number, .atom _ a => a.asNumber?.isSome && !a.isBool
  | symbol, .atom _ a => a.isSymbol
  | function, v => v.isCallable
  | object, v => v.isObject
  | _, _ => false

end Family

namespace Atom

/-- Tells whether an atom is the binary value that is not a number; a symbol may be one too. -/
def isNaN (a : Atom) : Bool :=
  match a.asNumber? with
  | some n => n.isNaN
  | none => false

/-- Tells whether an atom matches a literal. -/
def matchesLiteral (a literal : Atom) : Except Fault Bool :=
  if a.isNaN && literal.isNaN then .ok true
  else if a.isConstant || literal.isConstant then .ok (a = literal)
  else a.equal literal

end Atom

end ShapeCheck
