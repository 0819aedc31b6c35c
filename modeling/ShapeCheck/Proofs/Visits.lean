import ShapeCheck.Proofs.Parts

/-!
# Where a check goes and where it stops

A check goes from a schema and a value on to parts of both, in a fixed order, and each
part finds the surroundings that the parts before it left behind.  `Goes` tells the next
parts, and `Trouble` tells what can stop the check at a part itself.

Main statement: a check ends in a fault exactly if it visits a part that is in trouble
(`check_eq_error_iff_visits`).  No assumption is made about the predicates: they may keep
a state and they may fail.
-/

namespace ShapeCheck.Check

open Run

variable {σ : Type}

/-- A part of a check: a value that is checked against a schema in given surroundings. -/
structure Point (σ : Type) where
  schema : Value
  value : Value
  world : World σ

section

variable (host : Host σ)

/-- What the check of a part answers. -/
def Point.run (p : Point σ) : Except Fault Outcome × World σ :=
  (check host p.schema p.value).startedIn p.world

/-- The members of the value are tested against `shape`, strictly or not, from the last
surroundings on. -/
inductive Pass : Point σ → Value → Bool → World σ → Prop
  /-- An exact shape does so once no declared key is missing. -/
  | exact {d v : Value} {w w₁ : World σ} (hdemand : d.demand = .shape)
      (hvalue : v.isPrimitive = false)
      (hrequired : (required d v).startedIn w = (.ok none, w₁)) : Pass ⟨d, v, w⟩ d true w₁
  /-- An object with optional keys first has its declared members tested. -/
  | declared {d v : Value} {w : World σ} {own others : List (Value × Value)}
      (hdemand : d.demand = .optional own others) (hvalue : v.isObject = true) :
      Pass ⟨d, v, w⟩ (.dict others) false w
  /-- If these conform and no required key is missing, it has all its members tested. -/
  | all {d v : Value} {w w₁ w₂ : World σ} {own others : List (Value × Value)}
      (hdemand : d.demand = .optional own others) (hvalue : v.isObject = true)
      (hdeclared : (members (check host) (.dict others) v false).startedIn w = (.ok none, w₁))
      (hrequired : (required (.dict own) v).startedIn w₁ = (.ok none, w₂)) :
      Pass ⟨d, v, w⟩ (.dict others) true w₂

/-- The value is asked for the declared keys of `shape`, in the last surroundings. -/
inductive Requires : Point σ → Value → World σ → Prop
  | exact {d v : Value} {w : World σ} (hdemand : d.demand = .shape)
      (hvalue : v.isPrimitive = false) : Requires ⟨d, v, w⟩ d w
  | optional {d v : Value} {w w₁ : World σ} {own others : List (Value × Value)}
      (hdemand : d.demand = .optional own others) (hvalue : v.isObject = true)
      (hdeclared : (members (check host) (.dict others) v false).startedIn w = (.ok none, w₁)) :
      Requires ⟨d, v, w⟩ (.dict own) w₁

/-- The parts that a check goes on to from a part. -/
inductive Goes : Point σ → Point σ → Prop
  | element {d schema : Value} {w w₁ : World σ} {mark : Nat} {kind : SequenceKind}
      {items : List Value} {entry : Value × Nat} (hdemand : d.demand = .array schema)
      (hreaches : Reaches (element (check host) schema) items.zipIdx w entry w₁) :
      Goes ⟨d, .sequence mark kind items, w⟩ ⟨schema, entry.1, w₁⟩
  | value {d v schema : Value} {w w₁ : World σ} {entry : Value × Value}
      (hdemand : d.demand = .record schema) (hvalue : v.isObject = true)
      (hreaches : Reaches (memberValue (check host) schema) v.listing.members w entry w₁) :
      Goes ⟨d, v, w⟩ ⟨schema, entry.2, w₁⟩
  | alternative {d v schema : Value} {w w₁ : World σ} {before after : List Value}
      {problems : List Problem} (hdemand : d.demand = .union (before ++ schema :: after))
      (hbefore : (rejections (check host · v) before).startedIn w = (.ok (some problems), w₁)) :
      Goes ⟨d, v, w⟩ ⟨schema, v, w₁⟩
  | member {p : Point σ} {shape schema : Value} {w₁ w₂ : World σ} {strict : Bool}
      {entry : Value × Value} (hpass : Pass host p shape strict w₁)
      (hreaches : Reaches (member (check host) shape strict) p.value.listing.members w₁ entry w₂)
      (hkey : shape.Assigns entry.1 schema) : Goes p ⟨schema, entry.2, w₂⟩

/-- The parts that a check comes to, from a part on. -/
def Visits : Point σ → Point σ → Prop := Relation.ReflTransGen (Goes host)

/-- A member that the wildcard covers does not conform, and its key has no text by which
this could be told. -/
inductive Untold : Point σ → Fault → World σ → Prop
  | intro {p : Point σ} {shape schema : Value} {strict : Bool} {w₁ w₂ w₃ : World σ}
      {entry : Value × Value} {problem : Problem} {fault : Fault}
      (hpass : Pass host p shape strict w₁)
      (hreaches : Reaches (member (check host) shape strict) p.value.listing.members w₁ entry w₂)
      (hkey : shape.Covers entry.1 schema)
      (hitem : (check host schema entry.2).startedIn w₂ = (.ok (some problem), w₃))
      (htext : entry.1.plain = .error fault) : Untold p fault w₃

/-- What stops a check at a part itself: the fault, and the surroundings it leaves. -/
inductive Trouble : Point σ → Fault → World σ → Prop
  /-- A predicate fails. -/
  | predicate {d v p : Value} {w w' : World σ} {fault : Fault} (hasks : Asks d v p)
      (hcall : (call host p v).startedIn w = (.error fault, w')) : Trouble ⟨d, v, w⟩ fault w'
  /-- The value cannot tell whether it counts as true. -/
  | truth {d v : Value} {w : World σ} {fault : Fault} (hdemand : d.demand = .nullish)
      (htruth : v.truth = .error fault) : Trouble ⟨d, v, w⟩ fault w
  /-- A literal cannot be compared with the value. -/
  | comparison {d : Value} {l a : Atom} {mark : Nat} {w : World σ} {fault : Fault}
      (hdemand : d.demand = .literal l) (hequal : a.matchesLiteral l = .error fault) :
      Trouble ⟨d, .atom mark a, w⟩ fault w
  /-- A tag means nothing on a form without parts. -/
  | tag {d v : Value} {tag : Tag} {shown : String} {w : World σ}
      (hdemand : d.demand = .unknown tag) (hshown : (Value.ofTag tag).shown = .ok shown) :
      Trouble ⟨d, v, w⟩ (.unknownTag shown) w
  /-- The value cannot tell whether it has a declared key. -/
  | presence {p : Point σ} {shape : Value} {w₁ w₂ : World σ} {entry : Value × Value}
      {fault : Fault} (hrequires : Requires host p shape w₁)
      (hreaches : Reaches (present p.value) shape.listing.members w₁ entry w₂)
      (hentry : entry.1.isWildcard = false) (hkey : p.value.hasKey entry.1 = .error fault) :
      Trouble p fault w₂
  /-- The declared keys cannot all be listed. -/
  | declarations {p : Point σ} {shape : Value} {w₁ w₂ : World σ} {fault : Fault}
      (hrequires : Requires host p shape w₁)
      (hmembers : (firstMismatch (present p.value) shape.listing.members).startedIn w₁ =
        (.ok none, w₂))
      (hlisting : shape.listing.fault = some fault) : Trouble p fault w₂
  /-- The shape cannot tell whether it has the key of a member. -/
  | lookup {p : Point σ} {shape : Value} {strict : Bool} {w₁ w₂ : World σ}
      {entry : Value × Value} {fault : Fault} (hpass : Pass host p shape strict w₁)
      (hreaches : Reaches (member (check host) shape strict) p.value.listing.members w₁ entry w₂)
      (hkey : shape.hasKey entry.1 = .error fault) : Trouble p fault w₂
  /-- A mismatch of a member cannot be told. -/
  | text {p : Point σ} {w' : World σ} {fault : Fault} (huntold : Untold host p fault w') :
      Trouble p fault w'
  /-- The members of the value cannot all be listed. -/
  | listing {p : Point σ} {shape : Value} {strict : Bool} {w₁ w₂ : World σ} {fault : Fault}
      (hpass : Pass host p shape strict w₁)
      (hmembers : (firstMismatch (member (check host) shape strict)
        p.value.listing.members).startedIn w₁ = (.ok none, w₂))
      (hlisting : p.value.listing.fault = some fault) : Trouble p fault w₂
  /-- Neither can those of an object whose members are checked against one schema. -/
  | values {d v schema : Value} {w w₁ : World σ} {fault : Fault}
      (hdemand : d.demand = .record schema) (hvalue : v.isObject = true)
      (hmembers : (firstMismatch (memberValue (check host) schema)
        v.listing.members).startedIn w = (.ok none, w₁))
      (hlisting : v.listing.fault = some fault) : Trouble ⟨d, v, w⟩ fault w₁

end

variable {host : Host σ} {p q : Point σ} {shape : Value} {strict : Bool} {fault : Fault}
  {w' w₁ : World σ}

/-! ## Passes over keys -/

theorem Pass.run_of_members (hpass : Pass host p shape strict w₁)
    (hmembers : (members (check host) shape p.value strict).startedIn w₁ = (.error fault, w')) :
    p.run host = (.error fault, w') := by
  cases hpass with
  | exact hdemand hvalue hrequired =>
      rw [Point.run, check_of_shape hdemand hvalue, exactShape_eq_iff (error_ne_pass fault)]
      exact .inr ⟨w₁, hrequired, hmembers⟩
  | declared hdemand hvalue =>
      rw [Point.run, check_of_optional hdemand hvalue, optionalObject_eq_iff (error_ne_pass fault)]
      exact .inl hmembers
  | all hdemand hvalue hdeclared hrequired =>
      rw [Point.run, check_of_optional hdemand hvalue, optionalObject_eq_iff (error_ne_pass fault)]
      exact .inr ⟨_, hdeclared, .inr ⟨w₁, hrequired, hmembers⟩⟩

theorem Requires.run_of_required (hrequires : Requires host p shape w₁)
    (hrequired : (required shape p.value).startedIn w₁ = (.error fault, w')) :
    p.run host = (.error fault, w') := by
  cases hrequires with
  | exact hdemand hvalue =>
      rw [Point.run, check_of_shape hdemand hvalue, exactShape_eq_iff (error_ne_pass fault)]
      exact .inl hrequired
  | optional hdemand hvalue hdeclared =>
      rw [Point.run, check_of_optional hdemand hvalue, optionalObject_eq_iff (error_ne_pass fault)]
      exact .inr ⟨w₁, hdeclared, .inl hrequired⟩

/-- A pass over the members fails at a member or at the end of the listing. -/
theorem Pass.trouble_or_goes (hpass : Pass host p shape strict w₁)
    (hmembers : (members (check host) shape p.value strict).startedIn w₁ = (.error fault, w')) :
    Trouble host p fault w' ∨ ∃ q, Goes host p q ∧ q.run host = (.error fault, w') := by
  rw [members, eachMember_eq_error_iff] at hmembers
  rcases hmembers with ⟨entry, w₂, hreaches, hentry⟩ | ⟨hmembers, hlisting⟩
  · rcases member_eq_error_iff.mp hentry with
      ⟨hkey, rfl⟩ | ⟨schema, hkey, hitem⟩ | ⟨schema, problem, hkey, hitem, hplain⟩
    · exact .inl (.lookup hpass hreaches hkey)
    · exact .inr ⟨⟨schema, entry.2, w₂⟩, .member hpass hreaches hkey, hitem⟩
    · exact .inl (.text ⟨hpass, hreaches, hkey, hitem, hplain⟩)
  · exact .inl (.listing hpass hmembers hlisting)

theorem Requires.trouble (hrequires : Requires host p shape w₁)
    (hrequired : (required shape p.value).startedIn w₁ = (.error fault, w')) :
    Trouble host p fault w' := by
  rw [required, eachMember_eq_error_iff] at hrequired
  rcases hrequired with ⟨entry, w₂, hreaches, hentry⟩ | ⟨hmembers, hlisting⟩
  · obtain ⟨hdeclared, hkey, rfl⟩ := present_eq_error_iff.mp hentry
    exact .presence hrequires hreaches hdeclared hkey
  · exact .declarations hrequires hmembers hlisting

/-! ## One step -/

theorem Trouble.run (h : Trouble host p fault w') : p.run host = (.error fault, w') := by
  cases h with
  | predicate hasks hcall =>
      rw [Point.run, check_of_asks hasks, bind_pure_eq_error_iff]
      exact hcall
  | truth hdemand htruth =>
      rw [Point.run, check_of_undecided host hdemand htruth]
      rfl
  | comparison hdemand hequal =>
      rw [Point.run, check_of_literal hdemand, bind_pure_eq_error_iff, lift_startedIn, hequal]
  | tag hdemand hshown =>
      rw [Point.run, check_of_unknown hdemand, hshown]
      rfl
  | presence hrequires hreaches hentry hkey =>
      apply hrequires.run_of_required
      rw [required, eachMember_eq_error_iff]
      exact .inl ⟨_, _, hreaches, present_eq_error_iff.mpr ⟨hentry, hkey, rfl⟩⟩
  | declarations hrequires hmembers hlisting =>
      apply hrequires.run_of_required
      rw [required, eachMember_eq_error_iff]
      exact .inr ⟨hmembers, hlisting⟩
  | lookup hpass hreaches hkey =>
      apply hpass.run_of_members
      rw [members, eachMember_eq_error_iff]
      exact .inl ⟨_, _, hreaches, member_eq_error_iff.mpr (.inl ⟨hkey, rfl⟩)⟩
  | text huntold =>
      obtain ⟨hpass, hreaches, hkey, hitem, htext⟩ := huntold
      apply hpass.run_of_members
      rw [members, eachMember_eq_error_iff]
      refine .inl ⟨_, _, hreaches, member_eq_error_iff.mpr (.inr (.inr ?_))⟩
      exact ⟨_, _, hkey, hitem, htext⟩
  | listing hpass hmembers hlisting =>
      apply hpass.run_of_members
      rw [members, eachMember_eq_error_iff]
      exact .inr ⟨hmembers, hlisting⟩
  | values hdemand hvalue hmembers hlisting =>
      rw [Point.run, check_of_record hdemand hvalue, Check.values, eachMember_eq_error_iff]
      exact .inr ⟨hmembers, hlisting⟩

theorem Goes.run (h : Goes host p q) (hq : q.run host = (.error fault, w')) :
    p.run host = (.error fault, w') := by
  cases h with
  | element hdemand hreaches =>
      rw [Point.run, check_of_array hdemand, elements, firstMismatch_eq_iff (error_ne_pass fault)]
      exact ⟨_, _, hreaches, bind_pure_eq_error_iff.mpr hq⟩
  | value hdemand hvalue hreaches =>
      rw [Point.run, check_of_record hdemand hvalue, Check.values, eachMember_eq_error_iff]
      exact .inl ⟨_, _, hreaches, bind_pure_eq_error_iff.mpr hq⟩
  | alternative hdemand hbefore =>
      rw [Point.run, check_of_union hdemand, alternatives, bind_pure_eq_error_iff,
        rejections_eq_error_iff]
      exact ⟨_, _, _, _, _, rfl, hbefore, hq⟩
  | member hpass hreaches hkey =>
      apply hpass.run_of_members
      rw [members, eachMember_eq_error_iff]
      exact .inl ⟨_, _, hreaches, member_eq_error_iff.mpr (.inr (.inl ⟨_, hkey, hq⟩))⟩

/-- A check that fails does so at the part itself or at a part that it goes on to. -/
theorem trouble_or_goes (hp : p.run host = (.error fault, w')) :
    Trouble host p fault w' ∨ ∃ q, Goes host p q ∧ q.run host = (.error fault, w') := by
  obtain ⟨d, v, w⟩ := p
  have hcourse := check_course host d v
  change (check host d v).startedIn w = _ at hp
  generalize check host d v = run at hcourse hp
  cases hcourse with
  | fits => simp at hp
  | misfits => simp at hp
  | undecided hdemand htruth =>
      cases hp
      exact .inl (.truth hdemand htruth)
  | asks hasks => exact .inl (.predicate hasks (bind_pure_eq_error_iff.mp hp))
  | literal hdemand =>
      rw [bind_pure_eq_error_iff, lift_startedIn] at hp
      obtain ⟨hequal, rfl⟩ := Prod.mk.inj hp
      exact .inl (.comparison hdemand hequal)
  | elements hdemand =>
      rw [elements, firstMismatch_eq_iff (error_ne_pass fault)] at hp
      obtain ⟨entry, w₁, hreaches, hentry⟩ := hp
      exact .inr ⟨_, .element hdemand hreaches, bind_pure_eq_error_iff.mp hentry⟩
  | values hdemand hvalue =>
      rw [Check.values, eachMember_eq_error_iff] at hp
      rcases hp with ⟨entry, w₁, hreaches, hentry⟩ | ⟨hmembers, hlisting⟩
      · exact .inr ⟨_, .value hdemand hvalue hreaches, bind_pure_eq_error_iff.mp hentry⟩
      · exact .inl (.values hdemand hvalue hmembers hlisting)
  | alternatives hdemand =>
      rw [alternatives, bind_pure_eq_error_iff, rejections_eq_error_iff] at hp
      obtain ⟨before, schema, after, problems, w₁, rfl, hbefore, hschema⟩ := hp
      exact .inr ⟨_, .alternative hdemand hbefore, hschema⟩
  | shape hdemand hvalue =>
      rw [exactShape_eq_iff (error_ne_pass fault)] at hp
      rcases hp with hrequired | ⟨w₁, hrequired, hmembers⟩
      · exact .inl ((Requires.exact hdemand hvalue).trouble hrequired)
      · exact (Pass.exact hdemand hvalue hrequired).trouble_or_goes hmembers
  | optional hdemand hvalue =>
      rw [optionalObject_eq_iff (error_ne_pass fault)] at hp
      rcases hp with hmembers | ⟨w₁, hdeclared, hrequired | ⟨w₂, hrequired, hmembers⟩⟩
      · exact (Pass.declared hdemand hvalue).trouble_or_goes hmembers
      · exact .inl ((Requires.optional hdemand hvalue hdeclared).trouble hrequired)
      · exact (Pass.all hdemand hvalue hdeclared hrequired).trouble_or_goes hmembers
  | unknown hdemand =>
      cases hp
      exact .inl (.tag hdemand rfl)

/-! ## Runs -/

theorem Pass.keyed (h : Pass host p shape strict w₁) :
    ∃ declared, Keyed p.schema p.value declared shape := by
  cases h with
  | exact hdemand hvalue => exact ⟨_, .shape hdemand hvalue⟩
  | declared hdemand hvalue => exact ⟨_, .optional hdemand hvalue⟩
  | all hdemand hvalue => exact ⟨_, .optional hdemand hvalue⟩

theorem Requires.keyed {declared : Value} (h : Requires host p declared w₁) :
    ∃ shape, Keyed p.schema p.value declared shape := by
  cases h with
  | exact hdemand hvalue => exact ⟨_, .shape hdemand hvalue⟩
  | optional hdemand hvalue => exact ⟨_, .optional hdemand hvalue⟩

/-- A check goes on to next parts only. -/
theorem Goes.next (h : Goes host p q) : Next (p.schema, p.value) (q.schema, q.value) := by
  cases h with
  | element hdemand hreaches => exact .element hdemand (List.fst_mem_of_mem_zipIdx hreaches.mem)
  | value hdemand hvalue hreaches => exact .value hdemand hvalue hreaches.mem
  | alternative hdemand => exact .alternative hdemand (by simp)
  | member hpass hreaches hkey =>
      obtain ⟨declared, hkeyed⟩ := hpass.keyed
      exact .member hkeyed hreaches.mem hkey

theorem Visits.part (h : Visits host p q) : Part (p.schema, p.value) (q.schema, q.value) := by
  induction h with
  | refl => exact .refl
  | tail _ hgoes ih => exact ih.tail hgoes.next

theorem run_eq_error_iff :
    p.run host = (.error fault, w') ↔ ∃ q, Visits host p q ∧ Trouble host q fault w' := by
  constructor
  · intro hp
    obtain ⟨d, v, w⟩ := p
    -- The surroundings vary, since every part finds those that the last one left behind.
    induction d, v using Next.induction generalizing w with
    | step d v ih =>
        rcases trouble_or_goes hp with htrouble | ⟨q, hgoes, hq⟩
        · exact ⟨⟨d, v, w⟩, .refl, htrouble⟩
        · obtain ⟨r, hvisits, htrouble⟩ := ih q.schema q.value hgoes.next q.world hq
          exact ⟨r, .head hgoes hvisits, htrouble⟩
  · rintro ⟨q, hvisits, htrouble⟩
    induction hvisits using Relation.ReflTransGen.head_induction_on with
    | refl => exact htrouble.run
    | head hgoes _ ih => exact hgoes.run ih

/-- A check ends in a fault exactly if it visits a part that is in trouble, with the fault
and in the surroundings of that trouble. -/
theorem check_eq_error_iff_visits (host : Host σ) (d v : Value) (w w' : World σ)
    (fault : Fault) :
    (check host d v).startedIn w = (.error fault, w') ↔
      ∃ p, Visits host ⟨d, v, w⟩ p ∧ Trouble host p fault w' :=
  run_eq_error_iff (p := ⟨d, v, w⟩)

/-- A number that refuses to be compared, even with itself. -/
def signaling : Value := .atom 0 (.number (.decimal (.nan false true 0)))

/-- That number or anything else. -/
def signalingOrAny : Value := .tagged 0 .union (.union [signaling, .tagged 0 .any .atomic])

/-- A shape without any members, which still has a type that can be looked up. -/
def emptyRecord : Value := .record 0 []

/-- Checks that ask no predicate of the caller and fail all the same: at a comparison that
has no answer, and at a type that is found under the key of the value and called. -/
theorem check_fails_without_predicates :
    ((check agreeable signalingOrAny signaling).startedIn calm).1 = .error .invalidDecimal ∧
      ((check agreeable emptyRecord (.dict [(.text "__class__", .int 1)])).startedIn calm).1 =
        .error .wrongType :=
  ⟨rfl, rfl⟩

end ShapeCheck.Check
