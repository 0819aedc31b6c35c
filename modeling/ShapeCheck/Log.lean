import ShapeCheck.Json.Writer
import ShapeCheck.Settings

/-!
# Log events

An event has a level, a name and fields.  Until logging is configured every event is
printed, in columns; afterwards events below the configured level are dropped and the
others are printed in columns or as one JSON object a line.

The texts for the current time and for a measured duration come from a clock that the
surroundings supply.
-/

namespace ShapeCheck.Log

/-- How grave an event is. -/
inductive Level where
  | debug | info | warning | error | critical
  deriving DecidableEq

namespace Level

/-- The spelling of a level. -/
def name : Level → String
  | debug => "debug"
  | info => "info"
  | warning => "warning"
  | error => "error"
  | critical => "critical"

/-- The weight of a level. -/
def weight : Level → Nat
  | debug => 10
  | info => 20
  | warning => 30
  | error => 40
  | critical => 50

/-- The level of a given spelling; some levels have a second one. -/
def ofName? (s : String) : Option Level :=
  if s = "warn" then some warning
  else if s = "fatal" then some critical
  else if s = "exception" then some error
  else [debug, info, warning, error, critical].find? fun level => level.name = s

end Level

/-- What a field of an event holds. -/
inductive Field where
  | value (v : Value)
  /-- The duration that the clock measured. -/
  | elapsed

/-- An event before it is printed. -/
structure Event where
  level : Level
  name : String
  fields : List (String × Field)

/-- The texts that stand for the current time and for a measured duration. -/
structure Clock where
  now : String
  elapsed : String

/-- Which events are printed and how. -/
structure Config where
  /-- Events of less weight are dropped. -/
  threshold : Nat
  /-- Print in columns instead of JSON. -/
  columns : Bool
  deriving DecidableEq

namespace Config

/-- Everything is printed in columns. -/
def unconfigured : Config := ⟨0, true⟩

/-- The capital letters that a character becomes, as far as they can spell a level. -/
def capital (c : Char) : List Char :=
  let n := c.toNat
  if n = 223 then ['S', 'S']
  else if n = 305 then ['I']
  else if n = 383 then ['S']
  else if n = 64256 then ['F', 'F']
  else if n = 64257 then ['F', 'I']
  else if n = 64258 then ['F', 'L']
  else if n = 64259 then ['F', 'F', 'I']
  else if n = 64260 then ['F', 'F', 'L']
  else if n = 64261 || n = 64262 then ['S', 'T']
  else [c.toUpper]

/-- The weight below which events are dropped, by the spelling of a level in any case.
An unknown spelling counts as the level of information. -/
def thresholdOf (level : String) : Nat :=
  let word := String.ofList (level.toList.map capital).flatten
  if word = "CRITICAL" || word = "FATAL" then 50
  else if word = "ERROR" then 40
  else if word = "WARNING" || word = "WARN" then 30
  else if word = "DEBUG" then 10
  else if word = "NOTSET" then 0
  else 20

/-- The configuration that settings ask for. -/
def ofSettings (settings : Settings) : Config :=
  ⟨thresholdOf settings.logLevel, settings.debug⟩

/-- Tells whether an event is printed. -/
def prints (config : Config) (event : Event) : Bool :=
  config.threshold ≤ event.level.weight

end Config

/-- Stores a field; under a name that is there already it takes its place. -/
def setField (fields : List (String × Field)) (name : String) (field : Field) :
    List (String × Field) :=
  match fields with
  | [] => [(name, field)]
  | f :: rest => if f.1 = name then (name, field) :: rest else f :: setField rest name field

/-- All fields of a printed event in order: its own, its name, its level, and the time. -/
def Event.allFields (event : Event) (clock : Clock) : List (String × Field) :=
  let withName := setField event.fields "event" (.value (.text event.name))
  let withLevel := setField withName "level" (.value (.text event.level.name))
  setField withLevel "timestamp" (.value (.text clock.now))

/-- The text of a field in JSON.  Values without a notation are told by their shown
text. -/
def Field.json (clock : Clock) : Field → Except Fault String
  | .elapsed => .ok clock.elapsed
  | .value v =>
    match Json.write ⟨none, ", ", ": ", false, true, true, false, false⟩ v with
    | .error (.notEncodable _) => v.shown.map (Json.quote true)
    | written => written

/-- An event as one JSON object. -/
def Event.json (event : Event) (clock : Clock) : Except Fault String := do
  let fields ← (event.allFields clock).mapM fun (name, field) => do
    return Json.quote true name ++ ": " ++ (← field.json clock)
  return "\x7b" ++ ", ".intercalate fields ++ "\x7d"

def needsQuotes (s : String) : Bool :=
  s.toList.any fun c => [' ', '\t', '=', '\r', '\n', '"', '\''].contains c

/-- The text of a field in a column. -/
def Field.column (clock : Clock) : Field → Except Fault String
  | .elapsed => .ok clock.elapsed
  | .value v =>
    match v.asText? with
    | some s => if needsQuotes s then v.shown else .ok s
    | none => v.shown

/-- A text followed by blanks up to a width. -/
def padded (width : Nat) (s : String) : String :=
  s ++ String.ofList (List.replicate (width - s.length) ' ')

/-- A text without the blank space that it ends with. -/
def trimmedEnd (s : String) : String :=
  String.ofList ((s.toList.reverse.dropWhile Text.isBlank).reverse)

/-- An event in columns: the time, the level, the name, and the other fields by name. -/
def Event.columns (event : Event) (clock : Clock) : Except Fault String := do
  let others := (event.allFields clock).filter fun (name, _) =>
    name ≠ "event" && name ≠ "level" && name ≠ "timestamp"
  let sorted := others.mergeSort fun a b => a.1 ≤ b.1
  let fields ← sorted.mapM fun (name, field) => do return name ++ "=" ++ (← field.column clock)
  return trimmedEnd (clock.now ++ " [" ++ padded 9 event.level.name ++ "] " ++
    padded 30 event.name ++ " " ++ " ".intercalate fields)

/-- The line that an event is printed as, if it is printed. -/
def Event.line? (event : Event) (config : Config) (clock : Clock) :
    Except Fault (Option String) :=
  if config.prints event then
    (if config.columns then event.columns clock else event.json clock).map some
  else .ok none

/-- The event of a schema that declares the wildcard as required. -/
def misuse : Event :=
  ⟨.error, "descriptor_misuse",
    [("combinator", .value (.text "WithOptional")), ("key", .value (.text Symbol.wildcardText))]⟩

/-- The event of a guard that rejected a value. -/
def checkFailed (guard kind : String) : Event :=
  ⟨.debug, "check_failed",
    [("guard", .value (.text guard)), ("kind", .value (.text kind)), ("duration_ms", .elapsed)]⟩

/-- The event of a new configuration. -/
def configured (settings : Settings) : Event :=
  ⟨.debug, "logging_configured",
    [("level", .value (.text settings.logLevel)), ("debug", .value (.bool settings.debug))]⟩

end ShapeCheck.Log
