import ShapeCheck.Atom

/-!
# JSON spelling of atoms

How a text, a number or a constant is written in JSON text.  Quotes, backslashes and
control characters are always escaped; characters beyond ASCII are escaped as UTF-16
units where the text is to be plain ASCII.
-/

namespace ShapeCheck.Json

/-- Escapes one UTF-16 unit. -/
def escapeUnit (n : Nat) : String := "\\u" ++ Text.hexPadded 4 n

/-- The spelling of a character between quote marks. -/
def escapeChar (ascii : Bool) (c : Char) : String :=
  let n := c.toNat
  if c = '"' then "\\\""
  else if c = '\\' then "\\\\"
  else if c = '\n' then "\\n"
  else if c = '\r' then "\\r"
  else if c = '\t' then "\\t"
  else if n = 8 then "\\b"
  else if n = 12 then "\\f"
  else if n < 32 then escapeUnit n
  else if n < 127 || !ascii then c.toString
  else if n < 65536 then escapeUnit n
  else escapeUnit (55296 + (n - 65536) / 1024) ++ escapeUnit (56320 + (n - 65536) % 1024)

/-- A text between quote marks. -/
def quote (ascii : Bool) (s : String) : String :=
  "\"" ++ String.join (s.toList.map (escapeChar ascii)) ++ "\""

/-- The spelling of a binary number; special values are refused unless allowed. -/
def floatText (special : Bool) (x : Binary64) : Except Fault String :=
  match x with
  | .finite .. => .ok (FloatFormat.json.write x)
  | _ => if special then .ok (FloatFormat.json.write x) else .error .outOfRange

/-- The spelling of an atom that JSON has a notation for.  Symbols that are texts,
integers or binary numbers are written as such; for all other atoms there is none. -/
def atomText? (ascii special : Bool) : Atom → Option (Except Fault String)
  | .null => some (.ok "null")
  | .bool b => some (.ok (if b then "true" else "false"))
  | .text s _ => some (.ok (quote ascii s))
  | .symbol (.textual _ _ content) => some (.ok (quote ascii content))
  | .symbol (.numeric _ _ content) => some (Number.intText content)
  | .number (.int i _) | .symbol (.quantity _ _ (.int i _)) => some (Number.intText i)
  | .number (.binary x) | .symbol (.quantity _ _ (.binary x)) => some (floatText special x)
  | _ => none

/-- The text that an atom becomes as a key, if it can be one. -/
def keyText? (special : Bool) : Atom → Option (Except Fault String)
  | .text s _ => some (.ok s)
  | .symbol (.textual _ _ content) => some (.ok content)
  | a => atomText? true special a

end ShapeCheck.Json
