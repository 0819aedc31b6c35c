import ShapeCheck.Log

/-!
# What surrounds a check

A check depends on nothing but its schema, its value and the predicates that it calls.
Around it there are the settings and the log: a guard reads the settings before it
checks, and reports failures to the log.

`Run` is the type of computations in these surroundings.  A fault does not undo what
happened before it: calls that were made stay recorded and lines that were printed stay
printed.  The predicates of the caller see only a state of their own, so they can
neither read nor change the rest.
-/

namespace ShapeCheck

/-- A call of a predicate, with the name that the predicate goes by, if any. -/
structure Call where
  name : Option String
  argument : Value

/-- The surroundings of a check.  The predicates of the caller keep a state of type
`σ`. -/
structure World (σ : Type) where
  predicates : σ
  /-- The calls of predicates so far, in order. -/
  calls : List Call
  environment : Environment
  /-- The settings that were loaded last, until they are forgotten. -/
  cached : Option Settings
  logging : Log.Config
  clock : Log.Clock
  /-- The events that were handed to the log, in order, each with the line that it was
  printed as, if it was printed. -/
  events : List (Log.Event × Option String)

/-- A computation that may fail. -/
abbrev Run (σ : Type) (α : Type) : Type := ExceptT Fault (StateM (World σ)) α

/-- What answers the calls of a check that are not answered by a schema or a native. -/
structure Host (σ : Type) where
  /-- How each predicate of the caller answers an argument.  They are told apart by their
  marks. -/
  predicate : Nat → Value → σ → Except Fault Value × σ
  /-- How each operation that comes with a value answers an argument.  They are told apart
  by their names; a value that can be called itself is asked for its operation `__call__`. -/
  operation : Value → String → Value → Except Fault Value

namespace World

variable {σ : Type}

/-- The lines that were printed, in order. -/
def printed (world : World σ) : List String := world.events.filterMap Prod.snd

end World

namespace Run

variable {σ : Type}

/-- A computation that depends on nothing. -/
def lift {α : Type} (answer : Except Fault α) : Run σ α := fun world => (answer, world)

/-- Asks a predicate of the caller, and records the call. -/
def ask (host : Host σ) (mark : Nat) (name : Option String) (argument : Value) : Run σ Value :=
  fun world =>
    let (answer, predicates) := host.predicate mark argument world.predicates
    (answer, { world with predicates, calls := world.calls ++ [⟨name, argument⟩] })

/-- Records the call of a predicate that is answered without the caller. -/
def record (name : Option String) (argument : Value) : Run σ Unit :=
  modify fun world => { world with calls := world.calls ++ [⟨name, argument⟩] }

/-- Hands an event to the log. -/
def emit (event : Log.Event) : Run σ Unit := fun world =>
  match event.line? world.logging world.clock with
  | .error fault => (.error fault, world)
  | .ok line => (.ok (), { world with events := world.events ++ [(event, line)] })

/-- The settings in effect.  They are loaded when they are first needed and then kept;
a load that fails leaves nothing behind. -/
def settings : Run σ Settings := fun world =>
  match world.cached with
  | some settings => (.ok settings, world)
  | none =>
    match Settings.load [] world.environment with
    | .error fault => (.error fault, world)
    | .ok settings => (.ok settings, { world with cached := some settings })

/-- Replaces the environment; the kept settings are forgotten unless asked otherwise. -/
def setEnvironment (environment : Environment) (keep : Bool) : Run σ Unit :=
  modify fun world =>
    { world with environment, cached := if keep then world.cached else none }

/-- Settings from values passed in, with the environment for the rest. -/
def settingsFrom (given : List (String × Value)) : Run σ Settings := do
  lift (Settings.load given (← get).environment)

/-- Configures the log by given settings, or else by those in effect. -/
def configureLog (given : Option Settings) : Run σ Unit := do
  let settings ← match given with
    | some settings => pure settings
    | none => settings
  modify fun world => { world with logging := .ofSettings settings }
  emit (Log.configured settings)

end Run

end ShapeCheck
