import ShapeCheck.World

/-!
# Outcomes

A check ends in an outcome: nothing when the value conforms, and otherwise the mismatch
that tells why it does not.  Checks of parts are combined in two ways.  Where all parts
have to conform, they are tried in order up to the first that does not; where one
alternative is enough, they are tried in order up to the first that does.
-/

namespace ShapeCheck

/-- The outcome of a check: nothing if the value conforms, or else a mismatch. -/
abbrev Outcome : Type := Option Problem

namespace Outcome

/-- The outcome that the answer of a predicate stands for.  Only the truth value true
accepts; a text that is given instead becomes the reason. -/
def ofAnswer (answer : Value) : Outcome :=
  if answer.isTrue then none else some (.checkerFailed answer.asText?)

/-- The outcome of a test that tells conforming from not. -/
def ofBool (accepted : Bool) (problem : Problem) : Outcome :=
  if accepted then none else some problem

end Outcome

namespace Run

variable {σ : Type}

/-- Tests items in order up to the first mismatch. -/
def firstMismatch {α : Type} (test : α → Run σ Outcome) : List α → Run σ Outcome
  | [] => pure none
  | item :: rest => do
    match ← test item with
    | some problem => return some problem
    | none => firstMismatch test rest

/-- Tests the members of a value in order up to the first mismatch.  A listing that
ends with a fault does so after its members were tested. -/
def eachMember (listing : Listing) (test : Value × Value → Run σ Outcome) : Run σ Outcome := do
  match ← firstMismatch test listing.members with
  | some problem => return some problem
  | none =>
    match listing.fault with
    | some fault => throw fault
    | none => return none

/-- Tests alternatives in order up to the first that accepts; if none does, answers with
the mismatches of all. -/
def rejections {α : Type} (test : α → Run σ Outcome) : List α → Run σ (Option (List Problem))
  | [] => pure (some [])
  | item :: rest => do
    match ← test item with
    | none => return none
    | some problem => return (← rejections test rest).map (problem :: ·)

/-- A check under a name: reads the settings first, and reports a mismatch to the log if
the settings ask for it. -/
def guarded (name : String) (body : Run σ Outcome) : Run σ Outcome := do
  let settings ← settings
  let outcome ← body
  if settings.logFailures then
    match outcome with
    | some problem => emit (Log.checkFailed name problem.kind)
    | none => pure ()
  return outcome

end Run

end ShapeCheck
