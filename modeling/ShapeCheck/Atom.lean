import ShapeCheck.Number.Basic
import ShapeCheck.Text.Quoted

/-!
# Atoms

Atoms are the values without parts: the null value, truth values, texts, byte
strings, numbers and symbols.  They are the values that a shape compares by
equality.

A symbol is a member of a closed family of named constants.  Some families extend
texts or numbers, and then a member is also an ordinary text or number; members of
the others are equal to nothing but themselves.  The reserved `wildcard` symbol
stands for every key that a shape does not declare.
-/

namespace ShapeCheck

/-- A named constant of a closed family. -/
inductive Symbol where
  /-- A constant that is only itself; its content is shown but never compared. -/
  | named (owner name content : String)
  /-- A constant that is also a text. -/
  | textual (owner name content : String)
  /-- A constant that is also an integer, and has its text. -/
  | numeric (owner name : String) (content : Int)
  /-- A constant that is also a number of any kind, and keeps a text of its own. -/
  | quantity (owner name : String) (content : Number)
  /-- A union of the named bits of a family. -/
  | flags (owner : String) (names : List String) (bits : Nat)
  /-- The reserved key for whatever a shape does not declare. -/
  | wildcard
  deriving DecidableEq

namespace Symbol

/-- The family of a symbol. -/
def owner : Symbol → String
  | named owner .. | textual owner .. | numeric owner .. | quantity owner .. | flags owner .. =>
    owner
  | wildcard => "WildcardKey"

/-- The spelling of the reserved key. -/
def wildcardText : String := "[DefaultKey]"

/-- The plain text of a symbol.  A constant that is an integer has the text of the
integer. -/
def text : Symbol → Except Fault String
  | named owner name _ | textual owner name _ | quantity owner name _ =>
    .ok (owner ++ "." ++ name)
  | numeric _ _ content => Number.intText content
  | flags owner names bits =>
    .ok (if names.isEmpty then owner ++ "(" ++ Nat.repr bits ++ ")"
      else owner ++ "." ++ "|".intercalate names)
  | wildcard => .ok wildcardText

/-- The text of a symbol inside a larger value: its name together with its content. -/
def shown : Symbol → Except Fault String
  | named owner name content | textual owner name content =>
    .ok ("<" ++ owner ++ "." ++ name ++ ": " ++ Text.quoted content ++ ">")
  | numeric owner name content => do
    return "<" ++ owner ++ "." ++ name ++ ": " ++ (← Number.intText content) ++ ">"
  | quantity owner name content => do
    return "<" ++ owner ++ "." ++ name ++ ": " ++ (← content.shown) ++ ">"
  | flags owner names bits =>
    .ok ("<" ++ owner ++ (if names.isEmpty then "" else "." ++ "|".intercalate names) ++
      ": " ++ Nat.repr bits ++ ">")
  | wildcard => .ok wildcardText

end Symbol

/-- A value without parts.  `derived` marks texts of a type that extends the texts. -/
inductive Atom where
  | null
  | bool (b : Bool)
  | text (s : String) (derived : Bool)
  | bytes (bs : List UInt8)
  | number (n : Number)
  | symbol (s : Symbol)
  deriving DecidableEq

namespace Atom

/-- The text that an atom is, if it is one; symbols that are texts count. -/
def asText? : Atom → Option String
  | text s _ => some s
  | symbol (.textual _ _ content) => some content
  | _ => none

/-- The number that an atom is, if it is one; truth values and symbols that are
numbers count. -/
def asNumber? : Atom → Option Number
  | bool b => some (.int (if b then 1 else 0) false)
  | number n => some n
  | symbol (.numeric _ _ content) => some (.int content false)
  | symbol (.quantity _ _ content) => some content
  | _ => none

/-- The integer that an atom is, if it is one; truth values and symbols that are
integers count. -/
def asInt? (a : Atom) : Option Int :=
  match a.asNumber? with
  | some (.int i _) => some i
  | _ => none

def isBool : Atom → Bool
  | bool _ => true
  | _ => false

def isSymbol : Atom → Bool
  | symbol _ => true
  | _ => false

/-- Truth values and symbols are literal constants: each matches only itself. -/
def isConstant (a : Atom) : Bool := a.isBool || a.isSymbol

/-- Tells whether an atom counts as true: everything does but the null value, false,
zeros, and empty texts, byte strings and flag unions. -/
def truth : Atom → Bool
  | null => false
  | bool b => b
  | text s _ => s ≠ ""
  | bytes bs => !bs.isEmpty
  | number n => !n.isZero
  | symbol (.textual _ _ content) => content ≠ ""
  | symbol (.numeric _ _ content) => content ≠ 0
  | symbol (.quantity _ _ content) => !content.isZero
  | symbol (.flags _ _ bits) => bits ≠ 0
  | symbol (.named ..) | symbol .wildcard => true

/-- Equality of atoms: texts by content, byte strings by content, numbers exactly
across kinds, and everything else only with itself. -/
def equal (a b : Atom) : Except Fault Bool :=
  match a.asText?, b.asText? with
  | some s, some t => .ok (s = t)
  | some _, none | none, some _ => .ok false
  | none, none =>
    match a.asNumber?, b.asNumber? with
    | some m, some n => m.equal n
    | some _, none | none, some _ => .ok false
    | none, none => .ok (a = b)

/-- Atoms of which only one copy exists: equal ones are always the same value. -/
def isShared : Atom → Bool
  | null | bool _ | symbol _ => true
  | text s derived => !derived && (s.length ≤ 1 && s.toList.all fun c => c.toNat < 256)
  | bytes bs => bs.length ≤ 1
  | number (.int i derived) => !derived && -5 ≤ i && i ≤ 256
  | number _ => false

/-- The plain text of an atom. -/
def plain : Atom → Except Fault String
  | null => .ok "None"
  | bool b => .ok (if b then "True" else "False")
  | text s _ => .ok s
  | bytes bs => .ok (Text.quotedBytes bs)
  | number n => n.text
  | symbol s => s.text

/-- The text of an atom inside a larger value. -/
def shown : Atom → Except Fault String
  | text s _ => .ok (Text.quoted s)
  | number n => n.shown
  | symbol s => s.shown
  | a => a.plain

/-- The name of the type of an atom. -/
def typeName : Atom → String
  | null => "NoneType"
  | bool _ => "bool"
  | text _ derived => if derived then "StrSub" else "str"
  | bytes _ => "bytes"
  | number (.int _ derived) => if derived then "IntSub" else "int"
  | number (.binary _) => "float"
  | number (.decimal _) => "Decimal"
  | number (.fraction _) => "Fraction"
  | number (.complex ..) => "complex"
  | symbol s => s.owner

end Atom

end ShapeCheck
