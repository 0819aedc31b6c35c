import ShapeCheck.Fault
import ShapeCheck.Text.Quoted

/-!
# Patterns with places

A pattern is a text in which a percent sign and a letter mark a place for an argument,
with optional flags, a width and a precision in between; a doubled percent sign marks
none.  `fillOne` goes through a pattern that is given a single integer and tells whether
the integer fits, which it does when the pattern has exactly one place for it.
-/

namespace ShapeCheck.Text

/-- What a pattern is made of: characters, or bytes, which take fewer kinds of place. -/
inductive PatternKind where
  | text | bytes
  deriving DecidableEq

/-- A place in a pattern after its percent sign: whether its width and its precision are
taken from arguments, the letter and what follows. -/
structure Place where
  starred : Nat
  letter : Char
  rest : List Char

/-- Reads a width or a precision: digits, or a star that takes an argument. -/
def skipWidth : List Char → Nat × List Char
  | '*' :: rest => (1, rest)
  | cs => (0, cs.dropWhile Char.isDigit)

/-- Reads a place after its percent sign, up to its letter. -/
def place? (cs : List Char) : Option Place :=
  let afterFlags := cs.dropWhile fun c => "-+ #0".toList.contains c
  let (width, rest) := skipWidth afterFlags
  let (precision, rest) := match rest with
    | '.' :: more => skipWidth more
    | more => (0, more)
  let rest := match rest with
    | c :: more => if c = 'h' || c = 'l' || c = 'L' then more else rest
    | [] => []
  match rest with
  | [] => none
  | letter :: rest => some ⟨width + precision, letter, rest⟩

/-- The letters of the places that take an integer. -/
def letters : PatternKind → List Char
  | .text => "sraiduoxXeEfFgGc".toList
  | .bytes => "raiduoxXeEfFgGc".toList

/-- The fault for a letter that marks no place. -/
def unknownLetter (c : Char) (index : Nat) : Fault :=
  let shown := if 31 ≤ c.toNat && c.toNat < 127 then c else '?'
  .badValue ("unsupported format character '" ++ shown.toString ++ "' (0x" ++
    String.ofList (Nat.toDigits 16 c.toNat) ++ ") at index " ++ Nat.repr index)

/-- Goes through a pattern with a number of integers left to place, given at least as
many steps as there are characters. -/
def fillWithin (kind : PatternKind) (length : Nat) : Nat → Nat → List Char → Except Fault Unit
  | _, 0, [] => .ok ()
  | _, _ + 1, [] => .error .wrongType
  | 0, _, _ => .error .wrongType
  | steps + 1, left, '%' :: rest =>
    if rest.head? = some '(' then .error .wrongType
    else
      match place? rest with
      | none => if rest.contains '*' && left = 0 then .error .wrongType
        else .error (.badValue "incomplete format")
      | some place =>
        if left < place.starred then .error .wrongType
        else
          let left := left - place.starred
          if place.letter = '%' then fillWithin kind length steps left place.rest
          else
            match left with
            | 0 => .error .wrongType
            | left + 1 =>
              if (letters kind).contains place.letter then
                fillWithin kind length steps left place.rest
              else if kind = .bytes && (place.letter = 's' || place.letter = 'b') then
                .error .wrongType
              else
                .error (unknownLetter place.letter (length - place.rest.length - 1))
  | steps + 1, left, _ :: rest => fillWithin kind length steps left rest

/-- Tells whether a single integer fits into a pattern. -/
def fillOne (kind : PatternKind) (pattern : List Char) : Except Fault Unit :=
  fillWithin kind pattern.length (pattern.length + 1) 1 pattern

end ShapeCheck.Text
