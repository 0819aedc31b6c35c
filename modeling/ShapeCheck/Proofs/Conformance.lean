import ShapeCheck.Proofs.Refusals
import ShapeCheck.Proofs.Verdicts

/-!
# Conformance

`Conforms` tells which values conform to a schema without any order and without any
passes: it asks for all elements, all members and all declared keys at once, and for one
alternative of a union.  What the predicates hold of is a parameter.

With pure predicates that do not fail, a check accepts exactly the values that conform,
but for two ways out: a value may be unable to tell whether it counts as true, and where a
value is rejected under a key that only the wildcard covers, the check needs the text of that
key, and fails if it has none.
-/

namespace ShapeCheck.Check

open Run

/-- A value conforms to a schema.  `holds p x` tells that the predicate `p` holds of `x`. -/
inductive Conforms (holds : Value → Value → Prop) : Value → Value → Prop
  | fits {d v : Value} (hfits : Fits d v) : Conforms holds d v
  | predicate {d v p : Value} (hasks : Asks d v p) (hholds : holds p v) : Conforms holds d v
  | array {d schema : Value} {mark : Nat} {kind : SequenceKind} {items : List Value}
      (hdemand : d.demand = .array schema) (hitems : ∀ item ∈ items, Conforms holds schema item) :
      Conforms holds d (.sequence mark kind items)
  | record {d v schema : Value} (hdemand : d.demand = .record schema)
      (hvalue : v.isObject = true)
      (hmembers : ∀ entry ∈ v.listing.members, Conforms holds schema entry.2) :
      Conforms holds d v
  | union {d v schema : Value} {schemas : List Value} (hdemand : d.demand = .union schemas)
      (hschema : schema ∈ schemas) (hconforms : Conforms holds schema v) : Conforms holds d v
  | literal {d : Value} {l a : Atom} {mark : Nat} (hdemand : d.demand = .literal l)
      (hmatches : a.matchesLiteral l = .ok true) : Conforms holds d (.atom mark a)
  | keyed {d v declared shape : Value} (hkeyed : Keyed d v declared shape)
      (hdeclared : HasDeclared v declared)
      (hcovered : ∀ entry ∈ v.listing.members, HasSchema shape entry.1)
      (hmembers : ∀ entry ∈ v.listing.members, ∀ schema, shape.Assigns entry.1 schema →
        Conforms holds schema entry.2) : Conforms holds d v

variable {σ : Type} {host : Host σ} {W : World σ → Prop} {d v p : Value} {w w' : World σ}

/-- A predicate holds of a value: it answers with the truth value true. -/
def Approves (host : Host σ) (W : World σ → Prop) (p v : Value) : Prop :=
  ∃ answer, answer.isTrue = true ∧ Settles W (call host p v) (.ok answer)

/-- What a check accepts conforms. -/
theorem conforms_of_accepts (hpure : Pure host W d v) (hw : W w)
    (hrun : (check host d v).startedIn w = (.ok none, w')) :
    Conforms (Approves host W) d v := by
  induction d, v using Next.induction generalizing w w' with
  | step d v ih =>
      -- A part that accepts in all surroundings accepts in `w`, where the induction applies.
      have hnext {schema item : Value} (h : Next (d, v) (schema, item))
          (haccepts : Accepts host W schema item) : Conforms (Approves host W) schema item := by
        obtain ⟨w₁, -, hitem⟩ := haccepts w hw
        exact ih schema item h (hpure.next h) hw hitem
      have hkeys {declared shape : Value} (hkeyed : Keyed d v declared shape) :
          Conforms (Approves host W) d v := by
        obtain ⟨hdeclared, hmembers⟩ := hkeyed.accepts hpure hw hrun
        refine .keyed hkeyed hdeclared (fun entry hentry => (hmembers entry hentry).1) ?_
        intro entry hentry schema hkey
        exact hnext (.member hkeyed hentry hkey) ((hmembers entry hentry).2 schema hkey)
      have hcourse := check_course host d v
      generalize check host d v = run at hcourse hrun
      cases hcourse with
      | fits hfits => exact .fits hfits
      | misfits | undecided => simp at hrun
      | asks hasks =>
          obtain ⟨answer, hcall, hanswer⟩ := bind_pure_eq_ok_iff.mp hrun
          have hsettles := ((hpure.settled_call hasks).settles hw hcall).1
          exact .predicate hasks ⟨answer, ofAnswer_eq_none_iff.mp hanswer, hsettles⟩
      | literal hdemand =>
          obtain ⟨matched, hmatched, hanswer⟩ := bind_pure_eq_ok_iff.mp hrun
          obtain rfl := ofBool_eq_none_iff.mp hanswer
          exact .literal hdemand (congrArg Prod.fst hmatched)
      | elements hdemand =>
          refine .array hdemand ?_
          intro item hitem
          have haccepts := elements_pass
            (fun item hitem => check_settled (hpure.next (.element hdemand hitem))) hw hrun
          exact hnext (.element hdemand hitem) (haccepts item hitem)
      | values hdemand hvalue =>
          refine .record hdemand hvalue ?_
          intro entry hentry
          have haccepts := values_pass
            (fun entry hentry => check_settled (hpure.next (.value hdemand hvalue hentry))) hw hrun
          exact hnext (.value hdemand hvalue hentry) (haccepts entry hentry)
      | alternatives hdemand =>
          obtain ⟨schema, hschema, haccepts⟩ := alternatives_pass
            (fun schema hschema => check_settled (hpure.next (.alternative hdemand hschema)))
            hw hrun
          exact .union hdemand hschema (hnext (.alternative hdemand hschema) haccepts)
      | shape hdemand hvalue => exact hkeys (.shape hdemand hvalue)
      | optional hdemand hvalue => exact hkeys (.optional hdemand hvalue)
      | unknown =>
          obtain ⟨shown, w₁, -, hthrow⟩ := bind_eq_ok_iff.mp hrun
          simp at hthrow

/-- What conforms is never rejected. -/
theorem Conforms.not_rejects (h : Conforms (Approves host W) d v) (hpure : Pure host W d v)
    (hw : W w) (problem : Problem) : ¬ Rejects host W d v problem := by
  induction h generalizing problem with
  | fits hfits =>
      intro hrejects
      obtain ⟨w', -, hrun⟩ := hrejects w hw
      rw [check_of_fits host hfits] at hrun
      simp at hrun
  | predicate hasks hholds =>
      intro hrejects
      obtain ⟨answer, htrue, hanswer⟩ := hholds
      obtain ⟨w₁, -, hcall⟩ := hanswer w hw
      obtain ⟨w', -, hrun⟩ := hrejects w hw
      rw [check_of_asks hasks, bind_startedIn, hcall] at hrun
      have hnone := ofAnswer_eq_none_iff.mpr htrue
      simp [hnone] at hrun
  | literal hdemand hmatches =>
      intro hrejects
      obtain ⟨w', -, hrun⟩ := hrejects w hw
      rw [check_of_literal hdemand, hmatches, bind_pure_eq_ok_iff] at hrun
      obtain ⟨matched, hmatched, hmismatch⟩ := hrun
      cases hmatched
      simp [Outcome.ofBool] at hmismatch
  | array hdemand hitems ih =>
      intro hrejects
      obtain ⟨w', -, hrun⟩ := hrejects w hw
      rw [check_of_array hdemand] at hrun
      have hnext (item : Value) (hitem : item ∈ _) : Pure host W _ item :=
        hpure.next (.element hdemand hitem)
      obtain ⟨before, item, after, inner, rfl, -, hitem, -⟩ :=
        elements_mismatch (fun item hitem => check_settled (hnext item hitem)) hw hrun
      have hmem : item ∈ before ++ item :: after := by simp
      exact ih item hmem (hnext item hmem) inner hitem
  | record hdemand hvalue hmembers ih =>
      intro hrejects
      obtain ⟨w', -, hrun⟩ := hrejects w hw
      rw [check_of_record hdemand hvalue] at hrun
      have hnext (entry : Value × Value) (hentry : entry ∈ _) : Pure host W _ entry.2 :=
        hpure.next (.value hdemand hvalue hentry)
      obtain ⟨before, entry, after, inner, hlisted, -, hitem, -⟩ :=
        values_mismatch (fun entry hentry => check_settled (hnext entry hentry)) hw hrun
      have hmem : entry ∈ _ := hlisted ▸ List.mem_append_right before List.mem_cons_self
      exact ih entry hmem (hnext entry hmem) inner hitem
  | union hdemand hschema hconforms ih =>
      intro hrejects
      obtain ⟨w', -, hrun⟩ := hrejects w hw
      rw [check_of_union hdemand] at hrun
      have hnext (schema : Value) (hschema : schema ∈ _) : Pure host W schema _ :=
        hpure.next (.alternative hdemand hschema)
      obtain ⟨errors, -, hall⟩ := alternatives_mismatch
        (fun schema hschema => check_settled (hnext schema hschema)) hw hrun
      obtain ⟨error, -, herror⟩ := exists_of_forall₂ hall hschema
      exact ih (hnext _ hschema) error herror
  | keyed hkeyed hdeclared hcovered hmembers ih =>
      intro hrejects
      obtain ⟨w', -, hrun⟩ := hrejects w hw
      rcases hkeyed.mismatch hpure hw hrun with ⟨w₁, hrequired⟩ | ⟨strict, w₁, hw₁, hmembers⟩
      · obtain ⟨before, entry, after, hlisted, -, hwildcard, hkey, -⟩ :=
          required_mismatch hrequired
        have hmem : entry ∈ _ := hlisted ▸ List.mem_append_right before List.mem_cons_self
        have hpresent := hdeclared entry hmem hwildcard
        exact absurd (hkey.symm.trans hpresent) (by simp)
      · -- Which of the passes it was makes no difference: its first mismatch is a member's.
        obtain ⟨before, entry, after, hlisted, -, hrejected⟩ :=
          members_mismatch (hkeyed.settled hpure) hw₁ hmembers
        have hmem : entry ∈ _ := hlisted ▸ List.mem_append_right before List.mem_cons_self
        cases hrejected with
        | item htold hitem =>
            have hassigns := htold.assigns
            have hnext := hpure.next (.member hkeyed hmem hassigns)
            exact ih entry hmem _ hassigns hnext _ hitem
        | extra hkey =>
            obtain ⟨schema, hassigns⟩ := hcovered entry hmem
            exact hkey.not_assigns hassigns

/-! ## What can hinder a check -/

/-- Nothing but a predicate, the truth of the value or the text of a key can stop a check at
a part: no comparison and no look at an attribute fails, what is a key can be one, and no tag
is out of place. -/
structure Unhindered (d v : Value) : Prop where
  known (tag : Tag) : d.demand ≠ .unknown tag
  comparable {l a : Atom} {mark : Nat} (hdemand : d.demand = .literal l)
    (hvalue : v = .atom mark a) : ∃ b, a.matchesLiteral l = .ok b
  attributes (name : String) (fault : Fault) :
    d.attribute? name ≠ .error fault ∧ v.attribute? name ≠ .error fault
  hashable {declared shape : Value} (hkeyed : Keyed d v declared shape)
    (entry : Value × Value) (hentry : entry ∈ declared.listing.members ++ v.listing.members) :
    entry.1.isHashable = true

namespace Unhindered

theorem listing_fault (h : Unhindered d v) (fault : Fault) :
    d.listing.fault ≠ some fault ∧ v.listing.fault ≠ some fault := by
  constructor
  · intro hfault
    obtain ⟨-, -, -, -, -, name, -, hname⟩ := Value.listing_fault hfault
    exact (h.attributes name fault).1 hname
  · intro hfault
    obtain ⟨-, -, -, -, -, name, -, hname⟩ := Value.listing_fault hfault
    exact (h.attributes name fault).2 hname

theorem declared_listing_fault (h : Unhindered d v) {declared shape : Value}
    (hkeyed : Keyed d v declared shape) (fault : Fault) :
    declared.listing.fault ≠ some fault := by
  cases hkeyed with
  | shape => exact (h.listing_fault fault).1
  | optional => nofun

/-- The value can be asked for every declared key. -/
theorem hasKey (h : Unhindered d v) {declared shape : Value}
    (hkeyed : Keyed d v declared shape) {entry : Value × Value}
    (hentry : entry ∈ declared.listing.members) (fault : Fault) :
    v.hasKey entry.1 ≠ .error fault := by
  intro hkey
  rcases Value.hasKey_eq_error_iff.mp hkey with ⟨-, hunhashable, -⟩ | ⟨name, -, -, hname⟩
  · have hhashable := h.hashable hkeyed entry (List.mem_append_left _ hentry)
    exact absurd (hhashable.symm.trans hunhashable) Bool.true_eq_false.mp
  · exact (h.attributes name fault).2 hname

/-- The shape can be asked for every key of the value. -/
theorem shape_hasKey (h : Unhindered d v) {declared shape : Value}
    (hkeyed : Keyed d v declared shape) {entry : Value × Value}
    (hentry : entry ∈ v.listing.members) (fault : Fault) :
    shape.hasKey entry.1 ≠ .error fault := by
  intro hkey
  rcases Value.hasKey_eq_error_iff.mp hkey with ⟨-, hunhashable, -⟩ | ⟨name, hshape, -, hname⟩
  · have hhashable := h.hashable hkeyed entry (List.mem_append_right _ hentry)
    exact absurd (hhashable.symm.trans hunhashable) Bool.true_eq_false.mp
  · cases hkeyed with
    | shape => exact (h.attributes name fault).1 hname
    | optional => exact absurd hshape.1 Bool.true_eq_false.mp

end Unhindered

/-- What is left to stop a check at an unhindered part: the value cannot tell whether it
counts as true, or a mismatch of a member cannot be told. -/
inductive Halted (host : Host σ) : Point σ → Fault → World σ → Prop
  | undecided {d v : Value} {w : World σ} {fault : Fault} (hdemand : d.demand = .nullish)
      (htruth : v.truth = .error fault) : Halted host ⟨d, v, w⟩ fault w
  | untold {p : Point σ} {fault : Fault} {w' : World σ} (huntold : Untold host p fault w') :
      Halted host p fault w'

theorem Halted.trouble {q : Point σ} {fault : Fault} (h : Halted host q fault w') :
    Trouble host q fault w' := by
  cases h with
  | undecided hdemand htruth => exact .truth hdemand htruth
  | untold huntold => exact .text huntold

theorem Trouble.halted {q : Point σ} {fault : Fault} (h : Trouble host q fault w')
    (hunhindered : Unhindered q.schema q.value)
    (hanswers : ∀ p, Asks q.schema q.value p →
      ∃ answer, Settles W (call host p q.value) (.ok answer))
    (hw : W q.world) : Halted host q fault w' := by
  cases h with
  | predicate hasks hcall =>
      obtain ⟨answer, hanswer⟩ := hanswers _ hasks
      obtain ⟨w₁, -, hrun⟩ := hanswer _ hw
      exact absurd (hcall.symm.trans hrun) (by simp)
  | truth hdemand htruth => exact .undecided hdemand htruth
  | comparison hdemand hequal =>
      obtain ⟨b, hmatches⟩ := hunhindered.comparable hdemand rfl
      exact absurd (hequal.symm.trans hmatches) (by simp)
  | tag hdemand => exact absurd hdemand (hunhindered.known _)
  | presence hrequires hreaches _ hkey =>
      obtain ⟨shape, hkeyed⟩ := hrequires.keyed
      exact absurd hkey (hunhindered.hasKey hkeyed hreaches.mem fault)
  | declarations hrequires _ hlisting =>
      obtain ⟨shape, hkeyed⟩ := hrequires.keyed
      exact absurd hlisting (hunhindered.declared_listing_fault hkeyed fault)
  | lookup hpass hreaches hkey =>
      obtain ⟨declared, hkeyed⟩ := hpass.keyed
      exact absurd hkey (hunhindered.shape_hasKey hkeyed hreaches.mem fault)
  | text huntold => exact .untold huntold
  | listing _ _ hlisting => exact absurd hlisting (hunhindered.listing_fault fault).2
  | values _ _ _ hlisting => exact absurd hlisting (hunhindered.listing_fault fault).2

/-- With predicates that do not fail, and where nothing else hinders it, a check fails only
by coming to a value that cannot tell whether it counts as true, or to a mismatch under a
covered key that has no text. -/
theorem check_eq_error_iff_halted (hw : W w) (hanswering : Answering host W d v)
    (hunhindered : ∀ d' v', Part (d, v) (d', v') → Unhindered d' v') {fault : Fault} :
    (check host d v).startedIn w = (.error fault, w') ↔
      ∃ p, Visits host ⟨d, v, w⟩ p ∧ Halted host p fault w' := by
  change Point.run host ⟨d, v, w⟩ = _ ↔ _
  rw [run_eq_error_iff]
  constructor
  · rintro ⟨p, hvisits, htrouble⟩
    have hpart := hvisits.part
    have hworld := (hvisits.stays hanswering.pure hw).2
    exact ⟨p, hvisits,
      htrouble.halted (hunhindered _ _ hpart) (hanswering _ _ hpart) hworld⟩
  · rintro ⟨p, hvisits, hhalted⟩
    exact ⟨p, hvisits, hhalted.trouble⟩

/-- A value that can tell whether it counts as true, if it is asked to, and whose members
that only the wildcard covers have keys with a text. -/
structure Tellable (d v : Value) : Prop where
  truth (hdemand : d.demand = .nullish) : ∃ b, v.truth = .ok b
  keys {declared shape schema : Value} (hkeyed : Keyed d v declared shape)
    {entry : Value × Value} (hentry : entry ∈ v.listing.members)
    (hkey : shape.Covers entry.1 schema) : ∃ plain, entry.1.plain = .ok plain

/-- Where truth is decided and every covered key has a text, such a check does not fail at
all. -/
theorem check_returns (hw : W w) (hanswering : Answering host W d v)
    (hunhindered : ∀ d' v', Part (d, v) (d', v') → Unhindered d' v' ∧ Tellable d' v') :
    ∃ outcome w', (check host d v).startedIn w = (.ok outcome, w') := by
  rcases hrun : (check host d v).startedIn w with ⟨fault | outcome, w'⟩
  · have hnothing := fun d' v' hpart => (hunhindered d' v' hpart).1
    obtain ⟨p, hvisits, hhalted⟩ := (check_eq_error_iff_halted hw hanswering hnothing).mp hrun
    have htellable := (hunhindered _ _ hvisits.part).2
    cases hhalted with
    | undecided hdemand htruth =>
        obtain ⟨b, hb⟩ := htellable.truth hdemand
        exact absurd (hb.symm.trans htruth) (by simp)
    | untold huntold =>
        obtain ⟨hpass, hreaches, hkey, -, htext⟩ := huntold
        obtain ⟨declared, hkeyed⟩ := hpass.keyed
        obtain ⟨plain, hplain⟩ := htellable.keys hkeyed hreaches.mem hkey
        exact absurd (hplain.symm.trans htext) (by simp)
  · exact ⟨outcome, w', rfl⟩

/-- With pure predicates that do not fail, and where nothing else hinders it, a check
accepts exactly the values that conform, unless it comes to a value that cannot tell whether
it counts as true, or to a mismatch under a covered key that has no text. -/
theorem accepts_iff_conforms (hw : W w) (hanswering : Answering host W d v)
    (hunhindered : ∀ d' v', Part (d, v) (d', v') → Unhindered d' v') :
    ((check host d v).startedIn w).1 = .ok none ↔
      Conforms (Approves host W) d v ∧
        ¬ ∃ p fault w', Visits host ⟨d, v, w⟩ p ∧ Halted host p fault w' := by
  have hpure := hanswering.pure
  constructor
  · intro haccepts
    have hrun : (check host d v).startedIn w = (.ok none, _) := Prod.ext haccepts rfl
    refine ⟨conforms_of_accepts hpure hw hrun, ?_⟩
    rintro ⟨p, fault, w', hhalted⟩
    have hfails := (check_eq_error_iff_halted hw hanswering hunhindered).mpr ⟨p, hhalted⟩
    exact absurd (hrun.symm.trans hfails) (by simp)
  · rintro ⟨hconforms, hgoes⟩
    rcases hrun : (check host d v).startedIn w with ⟨fault | _ | problem, w'⟩
    · obtain ⟨p, hhalted⟩ := (check_eq_error_iff_halted hw hanswering hunhindered).mp hrun
      exact absurd ⟨p, fault, w', hhalted⟩ hgoes
    · rfl
    · have hrejects := (hpure.settles hw hrun).1
      exact absurd hrejects (hconforms.not_rejects hpure hw problem)

/-- An instance that cannot tell whether it counts as true. -/
def undecidedInstance : Value :=
  let truth := some (.error (.raised "ValueError" "ambiguous"))
  .object 1 [⟨"C", .absent, [], truth, none, none, false⟩] [] []

/-- What is nullish, or anything else. -/
def nullishOrAny : Value :=
  .tagged 0 .union (.union [.tagged 0 .nullish .atomic, .tagged 0 .any .atomic])

-- It would be anything, if it were not asked first whether it is nullish.
example :
    ((check agreeable nullishOrAny undecidedInstance).startedIn calm).1 =
      .error (.raised "ValueError" "ambiguous") :=
  rfl

/-- A predicate of the caller. -/
def predicateSchema : Value := .function 1 (some "p") [] none

/-- Sequences whose elements the predicate accepts. -/
def arraySchema : Value := .tagged 0 .array (.array predicateSchema)

theorem array_parts {part : Value × Value} (h : Part (arraySchema, .list [.int 1]) part) :
    part = (arraySchema, .list [.int 1]) ∨ part = (predicateSchema, .int 1) := by
  apply h.invariant (.inl rfl)
  intro p q hp hnext
  rcases hp with rfl | rfl
  · cases hnext with
    | element hdemand hitem =>
        cases hdemand
        exact .inr (by rw [List.mem_singleton.mp hitem])
    | value hdemand => cases hdemand
    | alternative hdemand => cases hdemand
    | member hkeyed => rcases hkeyed with ⟨⟨⟩⟩ | ⟨⟨⟩⟩
  · cases hnext with
    | value hdemand => cases hdemand
    | alternative hdemand => cases hdemand
    | member hkeyed => rcases hkeyed with ⟨⟨⟩⟩ | ⟨⟨⟩⟩

theorem array_answering : Answering agreeable (fun _ => True) arraySchema (.list [.int 1]) := by
  intro d' v' hpart p hasks
  rcases array_parts hpart with hpart | hpart
  · cases hpart
    rcases hasks with ⟨⟨⟩⟩ | ⟨⟨⟩⟩
  · cases hpart
    cases hasks with
    | predicate => exact ⟨.bool true, fun w hw => ⟨_, trivial, rfl⟩⟩
    | checker hdemand => cases hdemand

theorem array_unhindered (d' v' : Value) (h : Part (arraySchema, .list [.int 1]) (d', v')) :
    Unhindered d' v' := by
  rcases array_parts h with hpart | hpart
  · cases hpart
    exact ⟨nofun, nofun, fun _ _ => ⟨nofun, nofun⟩, nofun⟩
  · cases hpart
    exact ⟨nofun, nofun, fun _ _ => ⟨nofun, nofun⟩, nofun⟩

/-- The equivalence at a sequence whose only element the predicate accepts. -/
theorem conforms_of_accepted_array :
    Conforms (Approves agreeable fun _ => True) arraySchema (.list [.int 1]) ∧
      ¬ ∃ p fault w', Visits agreeable ⟨arraySchema, .list [.int 1], calm⟩ p ∧
        Halted agreeable p fault w' :=
  (accepts_iff_conforms (w := calm) trivial array_answering array_unhindered).mp rfl

/-- Any text. -/
def textSchema : Value := .tagged 0 .string (.family .string)

/-- Mappings from any keys to texts. -/
def textsSchema : Value := .dict [(.wildcard, textSchema)]

/-- Anything. -/
def anySchema : Value := .tagged 0 .any .atomic

/-- Mappings from any keys to texts, or anything else. -/
def looseSchema : Value := .tagged 0 .union (.union [textsSchema, anySchema])

/-- A mapping that holds a number under an integer. -/
def keyedBy (i : Int) : Value := .dict [(.int i, .int 1)]

theorem textsSchema_covers (i : Int) : textsSchema.Covers (.int i) textSchema :=
  ⟨rfl, rfl, rfl⟩

theorem loose_parts {i : Int} {part : Value × Value} (h : Part (looseSchema, keyedBy i) part) :
    part = (looseSchema, keyedBy i) ∨ part = (textsSchema, keyedBy i) ∨
      part = (anySchema, keyedBy i) ∨ part = (textSchema, .int 1) := by
  apply h.invariant (.inl rfl)
  intro p q hp hnext
  rcases hp with rfl | rfl | rfl | rfl
  · cases hnext with
    | value hdemand => cases hdemand
    | alternative hdemand hschema =>
        cases hdemand
        rcases List.mem_pair.mp hschema with rfl | rfl
        · exact .inr (.inl rfl)
        · exact .inr (.inr (.inl rfl))
    | member hkeyed => rcases hkeyed with ⟨⟨⟩⟩ | ⟨⟨⟩⟩
  · cases hnext with
    | value hdemand => cases hdemand
    | alternative hdemand => cases hdemand
    | member hkeyed hentry hkey =>
        cases hkeyed with
        | shape =>
            obtain rfl := List.mem_singleton.mp hentry
            obtain rfl := hkey.unique (.inr (textsSchema_covers i))
            exact .inr (.inr (.inr rfl))
        | optional hdemand => cases hdemand
  · cases hnext with
    | value hdemand => cases hdemand
    | alternative hdemand => cases hdemand
    | member hkeyed => rcases hkeyed with ⟨⟨⟩⟩ | ⟨⟨⟩⟩
  · cases hnext with
    | value hdemand => cases hdemand
    | alternative hdemand => cases hdemand
    | member hkeyed => rcases hkeyed with ⟨⟨⟩⟩ | ⟨⟨⟩⟩

/-- Nothing hinders the check of such a mapping but the text of its key. -/
theorem loose_unhindered (i : Int) (d' v' : Value) (h : Part (looseSchema, keyedBy i) (d', v')) :
    Unhindered d' v' := by
  rcases loose_parts h with hpart | hpart | hpart | hpart
  · cases hpart
    exact ⟨nofun, nofun, fun _ _ => ⟨nofun, nofun⟩, nofun⟩
  · cases hpart
    refine ⟨nofun, nofun, fun _ _ => ⟨nofun, nofun⟩, ?_⟩
    rintro - - (- | ⟨⟨⟩⟩) entry hentry
    rcases List.mem_pair.mp hentry with rfl | rfl <;> rfl
  · cases hpart
    exact ⟨nofun, nofun, fun _ _ => ⟨nofun, nofun⟩, nofun⟩
  · cases hpart
    exact ⟨nofun, nofun, fun _ _ => ⟨nofun, nofun⟩, nofun⟩

theorem loose_answering (i : Int) :
    Answering agreeable (fun _ => True) looseSchema (keyedBy i) := by
  intro d' v' hpart p hasks
  rcases loose_parts hpart with hpart | hpart | hpart | hpart
  all_goals
    cases hpart
    rcases hasks with ⟨⟨⟩⟩ | ⟨⟨⟩⟩

theorem loose_conforms (i : Int) :
    Conforms (Approves agreeable fun _ => True) looseSchema (keyedBy i) := by
  have hany : Conforms (Approves agreeable fun _ => True) anySchema (keyedBy i) :=
    .fits (.anything rfl)
  exact .union rfl (by simp) hany

theorem le_natAbs_pow {m n : Nat} (h : m ≤ n) : 10 ^ m ≤ ((10 ^ n : Nat) : Int).natAbs := by
  rw [Int.natAbs_natCast]
  exact Nat.pow_le_pow_right (by decide) h

/-- An integer with too many digits has no text. -/
theorem plain_of_long {i : Int} (hlong : 10 ^ Number.maxDigits ≤ i.natAbs) :
    (Value.int i).plain = .error .digitLimit := by
  have htext : Number.intText i = .error .digitLimit :=
    Number.intText_eq_error_iff.mpr ⟨hlong, rfl⟩
  exact htext

theorem loose_fails {i : Int} (hlong : 10 ^ Number.maxDigits ≤ i.natAbs) :
    ((check agreeable looseSchema (keyedBy i)).startedIn calm).1 = .error .digitLimit := by
  have hreaches : Reaches (member (check agreeable) textsSchema true)
      (keyedBy i).listing.members calm (.int i, .int 1) calm := ⟨[], [], rfl, rfl⟩
  have hitem : (check agreeable textSchema (.int 1)).startedIn calm =
      (.ok (some (.incorrectType textSchema (.int 1))), calm) := rfl
  have huntold : Untold agreeable ⟨textsSchema, keyedBy i, calm⟩ .digitLimit calm :=
    .intro (.exact rfl rfl rfl) hreaches (textsSchema_covers i) hitem (plain_of_long hlong)
  have hfirst : (rejections (check agreeable · (keyedBy i)) []).startedIn calm =
      (.ok (some []), calm) := rfl
  have hvisits : Visits agreeable ⟨looseSchema, keyedBy i, calm⟩ ⟨textsSchema, keyedBy i, calm⟩ :=
    .single (.alternative rfl hfirst)
  have hfails : Point.run agreeable ⟨looseSchema, keyedBy i, calm⟩ = (.error .digitLimit, calm) :=
    run_eq_error_iff.mpr ⟨_, hvisits, .text huntold⟩
  exact congrArg Prod.fst hfails

/-- A mapping may conform, since anything does, with nothing to hinder its check but the
text of its key, and yet the check fails: it cannot tell why the first alternative rejects
the mapping. -/
theorem conforms_and_fails :
    Conforms (Approves agreeable fun _ => True) looseSchema (keyedBy (10 ^ 5000 : Nat)) ∧
      Answering agreeable (fun _ => True) looseSchema (keyedBy (10 ^ 5000 : Nat)) ∧
      (∀ d' v', Part (looseSchema, keyedBy (10 ^ 5000 : Nat)) (d', v') → Unhindered d' v') ∧
      ((check agreeable looseSchema (keyedBy (10 ^ 5000 : Nat))).startedIn calm).1 =
        .error .digitLimit := by
  have hlong : 10 ^ Number.maxDigits ≤ ((10 ^ 5000 : Nat) : Int).natAbs :=
    le_natAbs_pow (n := 5000) (by decide)
  exact ⟨loose_conforms _, loose_answering _, loose_unhindered _, loose_fails hlong⟩

end ShapeCheck.Check
