import ShapeCheck.Json.Spelling
import ShapeCheck.Value.Members

/-!
# Mismatches and schemas as text

A mismatch is told in English, one line for each node of its tree, with every level
two spaces further in; the alternatives of a union are marked by a dash.  A schema is
described on one line.

Both mention values by their plain text, and a mismatch can itself be such a value,
so the three are defined together.
-/

namespace ShapeCheck

/-- What each level of nesting adds in front of a line. -/
def nestedIndent : String := "  "

/-- What the alternative of a union adds in front of its lines. -/
def alternativeMark : String := "-  "

namespace Value

/-- The key of a described shape: texts are quoted, anything else is told by its plain
text. -/
def describeKey (key : Value) (plain : Except Fault String) : Except Fault String :=
  match key.asText? with
  | some s => .ok (Json.quote true s)
  | none => plain

/-- The name by which a described predicate is told. -/
def describeCallable (f : Value) : Except Fault String := do
  return "<predicate " ++ (← f.predicateName f.typeName) ++ ">"

/-- Tells whether a mapping of optional keys declares a key that the required ones do
not. -/
def isOnlyOptional (required : List (Value × Value)) (key : Value) : Bool :=
  (entryAt? required key).isNone

/-- The description of a literal: its JSON spelling, or its plain text in quotes. -/
def describeLiteral (v : Value) : Except Fault String :=
  match v with
  | atom _ a =>
    match Json.atomText? true true a with
    | some spelled => spelled
    | none => do return Json.quote true (← a.plain)
  | v => do return Json.quote true (← v.ownText)

mutual

/-- The plain text of a value. -/
def plain : Value → Except Fault String
  | mismatch _ m => mismatchText m ""
  | v => v.ownText
termination_by structural v => v

/-- The description of a schema. -/
def describe : Value → Except Fault String
  | tagged mark tag form => describeForm mark tag form
  | mapping _ _ entries => do
    return "\x7b" ++ commaSeparated (← describeEntries [] entries) ++ "\x7d"
  | sequence _ _ items => do return "[" ++ commaSeparated (← describeItems items) ++ "]"
  | mismatch _ m => do return Json.quote true (← mismatchText m "")
  | v => if v.isCallable then describeCallable v else describeLiteral v
termination_by structural v => v

def describeForm (mark : Nat) (tag : Tag) : Form Value → Except Fault String
  | .bare => describeLiteral (tagged mark tag .bare)
  | .atomic | .family _ | .checker .. => .ok tag.label
  | .array element => do return "Array<" ++ (← element.describe) ++ ">"
  | .record value => do return "Record<" ++ (← value.describe) ++ ">"
  | .union alternatives => do return " | ".intercalate (← describeItems alternatives)
  | .optional required optional => do
    let extra := optional.filterMap fun e =>
      if isOnlyOptional required e.1 then some e.1 else none
    return "\x7b" ++ commaSeparated (← describeEntries extra optional) ++ "\x7d"
termination_by structural form => form

def describeItems : List Value → Except Fault (List String)
  | [] => .ok []
  | v :: rest => do return (← v.describe) :: (← describeItems rest)
termination_by structural items => items

/-- The descriptions of the entries of a shape; the keys in `marked` are optional. -/
def describeEntries (marked : List Value) :
    List (Value × Value) → Except Fault (List String)
  | [] => .ok []
  | (k, v) :: rest => do
    let question := if marked.any fun m => sameKey m k then "?" else ""
    let line := (← describeKey k k.plain) ++ question ++ ": " ++ (← v.describe)
    return line :: (← describeEntries marked rest)
termination_by structural entries => entries

/-- The text of a mismatch, with `indent` in front of every line. -/
def mismatchText : Mismatch Value → String → Except Fault String
  | .incorrectType expected got, indent => do
    match expected with
    | tagged _ tag form =>
      if form.isSimple then
        return indent ++ "The value " ++ (← got.plain) ++ " isn't assignable to type " ++ tag.label
    | _ => pure ()
    return indent ++ "The value " ++ (← got.plain) ++ " doesn't match " ++ (← expected.describe)
  | .incorrectValue expected got, indent => do
    return indent ++ "The value " ++ (← got.plain) ++ " isn't " ++ (← expected.plain)
  | .unionNoMatch errors, indent => do
    let alternatives ← mismatchTexts errors (indent ++ alternativeMark)
    return indent ++ "The value isn't assignable to any of the union types:\n" ++
      "\n".intercalate alternatives
  | .arrayError error index, indent => do
    return indent ++ "The array element #" ++ (← Number.intText index) ++
      " doesn't match the specified type:\n" ++ (← mismatchText error (indent ++ nestedIndent))
  | .recordError error key, indent => do
    return indent ++ "The key \"" ++ (← key.plain) ++ "\" doesn't match the Record type:\n" ++
      (← mismatchText error (indent ++ nestedIndent))
  | .objectError error key, indent => do
    return indent ++ "The key \"" ++ (← key.plain) ++ "\" of this object is invalid:\n" ++
      (← mismatchText error (indent ++ nestedIndent))
  | .requiredKeyMissing key, indent => do
    return indent ++ "The required key \"" ++ (← key.plain) ++ "\" is missing from this object"
  | .illegalExtraKey key, indent => do
    return indent ++ "This object has an extra key \"" ++ (← key.plain) ++ "\""
  | .checkerFailed reason, indent =>
    .ok (indent ++ "Checker function failed: " ++ reason.getD "False")
termination_by structural m => m

/-- The texts of a list of mismatches. -/
def mismatchTexts : List (Mismatch Value) → String → Except Fault (List String)
  | [], _ => .ok []
  | m :: rest, indent => do return (← mismatchText m indent) :: (← mismatchTexts rest indent)
termination_by structural ms => ms

end

end Value

namespace Mismatch

/-- The text of a mismatch, with `indent` in front of every line. -/
def text (m : Problem) (indent : String) : Except Fault String := Value.mismatchText m indent

end Mismatch

end ShapeCheck
