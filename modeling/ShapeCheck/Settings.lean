import ShapeCheck.Settings.EnvFile
import ShapeCheck.Value.Bytes

/-!
# Settings

Three settings govern logging.  Each is taken from the first source that gives it: the
values passed in, the environment variables, the environment file, and last a default.
Names of variables carry a common beginning and are matched without regard to case.

A source that gives something a setting cannot hold makes loading fail, but only for a
setting that no earlier source gives.
-/

namespace ShapeCheck

/-- The settings in effect. -/
structure Settings where
  logLevel : String
  debug : Bool
  /-- Report every failed check of a guard. -/
  logFailures : Bool
  deriving DecidableEq

/-- Where settings come from besides the values passed in. -/
structure Environment where
  /-- The beginning of the name of every variable that gives a setting. -/
  stem : String
  /-- The names that are bound to texts, in order. -/
  bound : List (String × String)
  /-- The text of the environment file, if there is one. -/
  file : Option String

namespace Settings

/-- The settings when no source gives any. -/
def standard : Settings := ⟨"info", false, false⟩

/-- A name in lower case. -/
def lowered (name : String) : String := String.ofList (name.toList.map Char.toLower)

/-- The variable that gives a setting; of several, the last one counts. -/
def variableText? (stem : String) (bound : List (String × String)) (field : String) :
    Option String :=
  (bound.reverse.find? fun (name, _) => lowered name = lowered (stem ++ field)).map Prod.snd

/-- The text that the environment gives for a setting: a variable, or else a line of
the environment file. -/
def environmentText? (environment : Environment) (field : String) : Option String :=
  let ⟨stem, bound, file⟩ := environment
  (variableText? stem bound field).or
    (file.bind fun content => variableText? stem (EnvFile.load content bound) field)

/-- Reads a truth value from text, without regard to case. -/
def switch? (s : String) : Option Bool :=
  let s := lowered s
  if ["1", "true", "t", "yes", "y", "on"].contains s then some true
  else if ["0", "false", "f", "no", "n", "off"].contains s then some false
  else none

/-- The truth value that a value passed in stands for: itself, a text that says so, or
a number that is one or zero. -/
def switchValue? (v : Value) : Option Bool :=
  match v with
  | .atom _ (.bool b) => some b
  | .atom _ (.bytes bs) => (Text.ofUtf8? bs).bind switch?
  | .atom _ a =>
    match a.asText?, a.asNumber? with
    | some s, _ => switch? s
    | none, some n =>
      if n.isComplex then none
      else if n.extent? = some (.rational 1) then some true
      else if n.extent? = some (.rational 0) then some false
      else none
    | none, none => none
  | _ => none

/-- A setting from the first source that gives it. -/
def choose {α : Type} (given : Option Value) (fromValue : Value → Option α)
    (written : Option String) (fromText : String → Option α) (default : α) : Except Fault α :=
  let read := match given, written with
    | some v, _ => fromValue v
    | none, some s => fromText s
    | none, none => some default
  match read with
  | some x => .ok x
  | none => .error .invalidFields

/-- Loads the settings, given the values passed in under their names. -/
def load (given : List (String × Value)) (environment : Environment) : Except Fault Settings := do
  let logLevel ← choose (given.lookup "LOG_LEVEL") Value.spelledText?
    (environmentText? environment "LOG_LEVEL") some standard.logLevel
  let debug ← choose (given.lookup "DEBUG") switchValue?
    (environmentText? environment "DEBUG") switch? standard.debug
  let logFailures ← choose (given.lookup "LOG_FAILURES") switchValue?
    (environmentText? environment "LOG_FAILURES") switch? standard.logFailures
  return ⟨logLevel, debug, logFailures⟩

end Settings

end ShapeCheck
