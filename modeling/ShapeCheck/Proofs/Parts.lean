import Mathlib.Logic.Relation
import ShapeCheck.Proofs.Unfolding

/-!
# The parts of a check

A check goes on from a schema and a value to parts of both.  `Next` tells the parts that
it may go on to at all: which of them it does go on to depends on the order of the value
and on what the predicates answer, and is told elsewhere.

Every next part has a less deep schema, so that whatever a check gets from its parts
holds of all checks (`Next.induction`).  A check of one part takes one of eleven courses
(`check_course`), and proofs about checks go by these.
-/

namespace ShapeCheck.Check

/-- The value is asked for the declared keys of `declared`, and its members are tested
against `shape`. -/
inductive Keyed (d v : Value) : (declared shape : Value) → Prop
  | shape (hdemand : d.demand = .shape) (hvalue : v.isPrimitive = false) : Keyed d v d d
  | optional {own others : List (Value × Value)} (hdemand : d.demand = .optional own others)
      (hvalue : v.isObject = true) : Keyed d v (.dict own) (.dict others)

/-- The schemas and values of the parts that a check may go on to. -/
inductive Next : Value × Value → Value × Value → Prop
  | element {d schema item : Value} {mark : Nat} {kind : SequenceKind} {items : List Value}
      (hdemand : d.demand = .array schema) (hitem : item ∈ items) :
      Next (d, .sequence mark kind items) (schema, item)
  | value {d v schema : Value} {entry : Value × Value} (hdemand : d.demand = .record schema)
      (hvalue : v.isObject = true) (hentry : entry ∈ v.listing.members) :
      Next (d, v) (schema, entry.2)
  | alternative {d v schema : Value} {schemas : List Value}
      (hdemand : d.demand = .union schemas) (hschema : schema ∈ schemas) :
      Next (d, v) (schema, v)
  | member {d v declared shape schema : Value} {entry : Value × Value}
      (hkeyed : Keyed d v declared shape) (hentry : entry ∈ v.listing.members)
      (hkey : shape.Assigns entry.1 schema) : Next (d, v) (schema, entry.2)

/-- A schema and a value that a check may come to, however many steps on. -/
def Part : Value × Value → Value × Value → Prop := Relation.ReflTransGen Next

/-- A schema has a predicate that it asks about a value. -/
inductive Asks (d v : Value) : (predicate : Value) → Prop
  | predicate (hdemand : d.demand = .predicate) : Asks d v d
  | checker {f : Family} {p : Value} (hdemand : d.demand = .checker f p)
      (hvalue : f.accepts v = true) : Asks d v p

/-- A schema takes a value without a look at its parts. -/
inductive Fits (d v : Value) : Prop
  | anything (hdemand : d.demand = .anything)
  | test {accepts : Value → Bool} (hdemand : d.demand = .test accepts)
      (hvalue : accepts v = true)
  | nullish (hdemand : d.demand = .nullish) (htruth : v.truth = .ok false)

/-- A schema is about another kind of values. -/
inductive Misfits (d v : Value) : Prop
  | test {accepts : Value → Bool} (hdemand : d.demand = .test accepts)
      (hvalue : accepts v = false)
  | nullish (hdemand : d.demand = .nullish) (htruth : v.truth = .ok true)
  | checker {f : Family} {p : Value} (hdemand : d.demand = .checker f p)
      (hvalue : f.accepts v = false)
  | array {schema : Value} (hdemand : d.demand = .array schema) (hvalue : v.isSequence = false)
  | record {schema : Value} (hdemand : d.demand = .record schema) (hvalue : v.isObject = false)
  | optional {own others : List (Value × Value)} (hdemand : d.demand = .optional own others)
      (hvalue : v.isObject = false)
  | literal {l : Atom} (hdemand : d.demand = .literal l) (hvalue : v.isPrimitive = false)
  | shape (hdemand : d.demand = .shape) (hvalue : v.isPrimitive = true)

variable {d v declared shape key schema : Value}

theorem descent_le_of_demand {demand : Demand} (hdemand : d.demand = demand) :
    demand.descent ≤ d.descent :=
  hdemand ▸ d.descent_demand_le

theorem Asks.descent_le {p : Value} (h : Asks d v p) : p.descent ≤ d.descent := by
  cases h with
  | predicate => exact Nat.le_refl _
  | checker hdemand => exact Nat.le_of_lt (descent_le_of_demand hdemand)

theorem Keyed.descent_lt (h : Keyed d v declared shape) (hkey : shape.Assigns key schema) :
    schema.descent < d.descent := by
  cases h with
  | shape hdemand => exact hkey.descent_lt hdemand
  | optional hdemand =>
      have hschema := hkey.descent_le
      exact Nat.lt_of_le_of_lt hschema (descent_le_of_demand hdemand)

theorem Next.descent_lt {part next : Value × Value} (h : Next part next) :
    next.1.descent < part.1.descent := by
  cases h with
  | element hdemand => exact descent_le_of_demand hdemand
  | value hdemand => exact descent_le_of_demand hdemand
  | alternative hdemand hschema =>
      have hitem := Value.descent_le_descentItems hschema
      exact Nat.lt_of_le_of_lt hitem (descent_le_of_demand hdemand)
  | member hkeyed _ hkey => exact hkeyed.descent_lt hkey

/-- What holds of a part whenever it holds of all next parts holds of every part. -/
theorem Next.induction {P : Value → Value → Prop}
    (step : ∀ d v, (∀ d' v', Next (d, v) (d', v') → P d' v') → P d v) (d v : Value) :
    P d v := by
  induction hdescent : d.descent using Nat.strongRecOn generalizing d v with
  | _ n ih =>
      apply step
      intro d' v' hnext
      exact ih d'.descent (hdescent ▸ hnext.descent_lt) d' v' rfl

/-- What a step preserves holds of all parts. -/
theorem Part.invariant {I : Value × Value → Prop} {part part' : Value × Value}
    (h : Part part part') (hstart : I part) (hnext : ∀ p q, I p → Next p q → I q) :
    I part' := by
  induction h with
  | refl => exact hstart
  | tail _ hlast ih => exact hnext _ _ ih hlast

/-! ## The courses of a check -/

section

open Run

variable {σ : Type}

theorem check_of_fits (host : Host σ) (hfits : Fits d v) : check host d v = pure none := by
  rw [check_eq_meet]
  cases hfits with
  | anything hdemand => rw [hdemand, meet]
  | test hdemand hvalue =>
      rw [hdemand, meet, hvalue]
      rfl
  | nullish hdemand htruth =>
      rw [hdemand, meet, htruth]
      rfl

theorem check_of_undecided (host : Host σ) (hdemand : d.demand = .nullish) {fault : Fault}
    (htruth : v.truth = .error fault) : check host d v = throw fault := by
  rw [check_eq_meet, hdemand, meet, htruth]
  rfl

theorem check_of_asks {host : Host σ} {p : Value} (hasks : Asks d v p) :
    check host d v = call host p v >>= fun answer => pure (.ofAnswer answer) := by
  cases hasks with
  | predicate hdemand => exact check_of_predicate hdemand v
  | checker hdemand hvalue => exact check_of_checker hdemand hvalue

/-- What a check of a value against a schema comes down to. -/
inductive Course (host : Host σ) (d : Value) : Value → Run σ Outcome → Prop
  | fits {v : Value} (hfits : Fits d v) : Course host d v (pure none)
  | misfits {v : Value} (hmisfits : Misfits d v) :
      Course host d v (pure (some (.incorrectType d v)))
  | undecided {v : Value} {fault : Fault} (hdemand : d.demand = .nullish)
      (htruth : v.truth = .error fault) : Course host d v (throw fault)
  | asks {v p : Value} (hasks : Asks d v p) :
      Course host d v (call host p v >>= fun answer => pure (.ofAnswer answer))
  | literal {l a : Atom} {mark : Nat} (hdemand : d.demand = .literal l) :
      Course host d (.atom mark a)
        (lift (a.matchesLiteral l) >>= fun matched =>
          pure (.ofBool matched (.incorrectValue d (.atom mark a))))
  | elements {schema : Value} {mark : Nat} {kind : SequenceKind} {items : List Value}
      (hdemand : d.demand = .array schema) :
      Course host d (.sequence mark kind items) (elements (check host) schema items)
  | values {v schema : Value} (hdemand : d.demand = .record schema) (hvalue : v.isObject = true) :
      Course host d v (values (check host) schema v)
  | alternatives {v : Value} {schemas : List Value} (hdemand : d.demand = .union schemas) :
      Course host d v (alternatives (check host) schemas v)
  | shape {v : Value} (hdemand : d.demand = .shape) (hvalue : v.isPrimitive = false) :
      Course host d v (exactShape (check host) d v)
  | optional {v : Value} {own others : List (Value × Value)}
      (hdemand : d.demand = .optional own others) (hvalue : v.isObject = true) :
      Course host d v (optionalObject (check host) own others v)
  | unknown {v : Value} {tag : Tag} (hdemand : d.demand = .unknown tag) :
      Course host d v
        (lift (Value.ofTag tag).shown >>= fun shown => throw (.unknownTag shown))

theorem check_course (host : Host σ) (d v : Value) : Course host d v (check host d v) := by
  rw [check_eq_meet]
  cases hdemand : d.demand with
  | anything => exact .fits (.anything hdemand)
  | test accepts =>
      cases hvalue : accepts v with
      | true =>
          rw [meet, hvalue]
          exact .fits (.test hdemand hvalue)
      | false =>
          rw [meet, hvalue]
          exact .misfits (.test hdemand hvalue)
  | nullish =>
      rcases htruth : v.truth with fault | _ | _
      · rw [meet, htruth]
        exact .undecided hdemand htruth
      · rw [meet, htruth]
        exact .fits (.nullish hdemand htruth)
      · rw [meet, htruth]
        exact .misfits (.nullish hdemand htruth)
  | checker f p =>
      cases hvalue : f.accepts v with
      | true =>
          rw [meet, if_pos hvalue]
          exact .asks (.checker hdemand hvalue)
      | false =>
          rw [meet, if_neg (by simp [hvalue])]
          exact .misfits (.checker hdemand hvalue)
  | array schema =>
      cases v with
      | sequence mark kind items => exact .elements hdemand
      | _ => exact .misfits (.array hdemand rfl)
  | record schema =>
      cases hvalue : v.isObject with
      | true =>
          rw [meet, if_pos hvalue]
          exact .values hdemand hvalue
      | false =>
          rw [meet, if_neg (by simp [hvalue])]
          exact .misfits (.record hdemand hvalue)
  | optional own others =>
      cases hvalue : v.isObject with
      | true =>
          rw [meet, if_pos hvalue]
          exact .optional hdemand hvalue
      | false =>
          rw [meet, if_neg (by simp [hvalue])]
          exact .misfits (.optional hdemand hvalue)
  | union schemas => exact .alternatives hdemand
  | unknown tag => exact .unknown hdemand
  | predicate => exact .asks (.predicate hdemand)
  | literal l =>
      cases v with
      | atom mark a => exact .literal hdemand
      | _ => exact .misfits (.literal hdemand rfl)
  | shape =>
      cases hvalue : v.isPrimitive with
      | true =>
          rw [meet, if_pos hvalue]
          exact .misfits (.shape hdemand hvalue)
      | false =>
          rw [meet, if_neg (by simp [hvalue])]
          exact .shape hdemand hvalue

end

end ShapeCheck.Check
