import ShapeCheck.Predicate
import ShapeCheck.Proofs.Merging

/-!
# Acceptance in another arrangement

Checks of alike values against alike schemas go on to alike parts, though in another order.
Whether a value conforms does not depend on the order, so that what is accepted in one
arrangement conforms in every other, provided that the schemas have no predicates in them.

Even then a shape that is looked into by attribute name may hand out an operation, and an
operation may tell a tuple from a list: a double-ended queue contains one and not the other.
Such an operation is the only thing that can make a difference to conformance.

What conforms need not be accepted.  A check ends with the first mismatch, and in another
order it may come to a part that stops it before it comes to that mismatch.
-/

namespace ShapeCheck

open Value

/-- Tells whether a demand is not made of other schemas. -/
def Demand.isSimple : Demand → Bool
  | checker .. | array _ | record _ | optional .. | union _ => false
  | anything | test _ | nullish | unknown _ | predicate | literal _ | shape => true

/-- Demands that differ in the arrangement of what they are made of. -/
inductive AlikeDemand : Demand → Demand → Prop
  | same (demand : Demand) : AlikeDemand demand demand
  | array {element element' : Value} (h : AlikeSchema element element') :
      AlikeDemand (.array element) (.array element')
  | record {schema schema' : Value} (h : AlikeSchema schema schema') :
      AlikeDemand (.record schema) (.record schema')
  | optional {own own' others others' : List (Value × Value)}
      (hown : SameEntries AlikeSchema own own') (hothers : SameEntries AlikeSchema others others') :
      AlikeDemand (.optional own others) (.optional own' others')
  | union {schemas schemas' : List Value} (h : List.Forall₂ AlikeSchema schemas schemas') :
      AlikeDemand (.union schemas) (.union schemas')

theorem Value.AlikeSchema.demand {d d' : Value} (h : AlikeSchema d d') :
    AlikeDemand d.demand d'.demand := by
  cases h with
  | intro hR h =>
      cases h with
      | same | atom | sequence | mapping => exact .same _
  | @array m n tag element element' h => cases tag <;> first | exact .array h | exact .same _
  | @record m n tag schema schema' h => cases tag <;> first | exact .record h | exact .same _
  | @optional R m n tag own own' others others' hR hown hothers =>
      have halike : AlikeDemand (.optional own others) (.optional own' others') :=
        .optional (hown.mono hR) (hothers.mono hR)
      cases tag <;> first | exact halike | exact .same _
  | @union R m n tag schemas schemas' hR h => cases tag <;> exact .union (h.imp hR)

section

variable {d d' : Value} (hd : AlikeSchema d d')

include hd

theorem Value.AlikeSchema.demand_array {element : Value} (hdemand : d.demand = .array element) :
    ∃ element', d'.demand = .array element' ∧ AlikeSchema element element' := by
  have hdemands := hd.demand
  rw [hdemand] at hdemands
  generalize d'.demand = demand' at hdemands ⊢
  cases hdemands with
  | same => exact ⟨element, rfl, .refl element⟩
  | array h => exact ⟨_, rfl, h⟩

theorem Value.AlikeSchema.demand_record {schema : Value} (hdemand : d.demand = .record schema) :
    ∃ schema', d'.demand = .record schema' ∧ AlikeSchema schema schema' := by
  have hdemands := hd.demand
  rw [hdemand] at hdemands
  generalize d'.demand = demand' at hdemands ⊢
  cases hdemands with
  | same => exact ⟨schema, rfl, .refl schema⟩
  | record h => exact ⟨_, rfl, h⟩

theorem Value.AlikeSchema.demand_optional {own others : List (Value × Value)}
    (hdemand : d.demand = .optional own others) :
    ∃ own' others', d'.demand = .optional own' others' ∧
      SameEntries AlikeSchema own own' ∧ SameEntries AlikeSchema others others' := by
  have hdemands := hd.demand
  rw [hdemand] at hdemands
  generalize d'.demand = demand' at hdemands ⊢
  cases hdemands with
  | same => exact ⟨own, others, rfl, .refl AlikeSchema.refl own, .refl AlikeSchema.refl others⟩
  | optional hown hothers => exact ⟨_, _, rfl, hown, hothers⟩

theorem Value.AlikeSchema.demand_union {schemas : List Value}
    (hdemand : d.demand = .union schemas) :
    ∃ schemas', d'.demand = .union schemas' ∧ List.Forall₂ AlikeSchema schemas schemas' := by
  have hdemands := hd.demand
  rw [hdemand] at hdemands
  generalize d'.demand = demand' at hdemands ⊢
  cases hdemands with
  | same => exact ⟨schemas, rfl, List.forall₂_same.mpr fun schema _ => .refl schema⟩
  | union h => exact ⟨_, rfl, h⟩

/-- A demand that is not made of other schemas is the same in every arrangement. -/
theorem Value.AlikeSchema.demand_simple {demand : Demand} (hdemand : d.demand = demand)
    (hsimple : demand.isSimple = true) : d'.demand = demand := by
  have hdemands := hd.demand
  rw [hdemand] at hdemands
  generalize d'.demand = demand' at hdemands ⊢
  cases hdemands with
  | same => rfl
  | array | record | optional | union => cases hsimple

end

/-- A shape only differs from what it is alike to by its arrangement. -/
theorem Value.AlikeSchema.rearranged {d d' : Value} (h : AlikeSchema d d')
    (hdemand : d.demand = .shape) : Rearranged AlikeSchema d d' := by
  have htagged := (demand_eq_shape_iff.mp hdemand).1
  cases h with
  | intro hR h => exact h.mono hR
  | array | record | optional | union => cases htagged

/-- Operations have no parts, and so no other arrangement. -/
theorem Value.AlikeSchema.eq_of_operation {d d' : Value} (h : AlikeSchema d d')
    (hd : d.Operation) : d' = d := by
  cases h with
  | intro hR h =>
      cases h with
      | same => rfl
      | atom | sequence | mapping => cases hd
  | array | record | optional | union => cases hd

namespace Check

open Run

variable {K : Value → Prop} {holds : Value → Value → Prop}
  {d d' v v' declared declared' shape shape' : Value}

/-- The mappings that a check looks keys up in have keys, no two of them the same. -/
structure Orderly (K : Value → Prop) (d v : Value) : Prop where
  value : v.WellKeyed K
  shapes {declared shape : Value} : Keyed d v declared shape →
    declared.WellKeyed K ∧ shape.WellKeyed K

theorem Keyed.rearranged (h : Keyed d v declared shape) (hd : AlikeSchema d d')
    (hv : Rearranged Alike v v') :
    ∃ declared' shape', Keyed d' v' declared' shape' ∧
      Rearranged AlikeSchema declared declared' ∧ Rearranged AlikeSchema shape shape' := by
  cases h with
  | shape hdemand hvalue =>
      rw [hv.isPrimitive_eq] at hvalue
      have halike := hd.rearranged hdemand
      exact ⟨d', d', .shape (hd.demand_simple hdemand rfl) hvalue, halike, halike⟩
  | optional hdemand hvalue =>
      rw [hv.isObject_eq] at hvalue
      obtain ⟨own', others', hdemand', hown, hothers⟩ := hd.demand_optional hdemand
      exact ⟨_, _, .optional hdemand' hvalue, .mapping hown, .mapping hothers⟩

theorem Keyed.shape_isPrimitive (h : Keyed d v declared shape) : shape.isPrimitive = false := by
  cases h with
  | shape hdemand => exact (demand_eq_shape_iff.mp hdemand).2.1
  | optional => rfl

theorem Fits.rearranged (h : Fits d v) (hd : AlikeSchema d d') (hv : Rearranged Alike v v') :
    Fits d' v' := by
  cases h with
  | anything hdemand => exact .anything (hd.demand_simple hdemand rfl)
  | test hdemand hvalue =>
      rw [hv.test_eq hdemand] at hvalue
      exact .test (hd.demand_simple hdemand rfl) hvalue
  | nullish hdemand hvalue =>
      rw [hv.truth_eq] at hvalue
      exact .nullish (hd.demand_simple hdemand rfl) hvalue

section

variable (hK : Coherent K) (hkeyed : Keyed d v declared shape)
  (hkeyed' : Keyed d' v' declared' shape') (hv : Rearranged Alike v v')
  (horderly : Orderly K d v) (horderly' : Orderly K d' v')

include hK hkeyed hkeyed' hv horderly horderly'

/-- A value has the declared keys in every arrangement. -/
theorem HasDeclared.rearranged (h : HasDeclared v declared)
    (hdeclared : Rearranged AlikeSchema declared declared') : HasDeclared v' declared' := by
  intro entry' hentry' hwildcard
  obtain ⟨entry, hentry, hcopy, -⟩ := hdeclared.exists_partner AlikeSchema.refl hentry'
  have hkey := isKey_of_member hK (horderly.shapes hkeyed).1 hentry
  have hkey' := isKey_of_member hK (horderly'.shapes hkeyed').1 hentry'
  rw [← hcopy.isWildcard_eq] at hwildcard
  rw [← hv.hasKey_eq hK hkey hkey' hcopy Alike.refl horderly.value horderly'.value]
  exact h entry hentry hwildcard

/-- Each member of a rearranged value is alike to a member of the value, and its shape
has an alike schema for it. -/
theorem exists_member_of_rearranged (hshape : Rearranged AlikeSchema shape shape')
    (hcovered : ∀ entry ∈ v.listing.members, HasSchema shape entry.1) {entry' : Value × Value}
    (hentry' : entry' ∈ v'.listing.members) :
    ∃ entry ∈ v.listing.members, ∃ schema schema', Alike entry.2 entry'.2 ∧
      shape.Assigns entry.1 schema ∧ shape'.Assigns entry'.1 schema' ∧
      AlikeSchema schema schema' := by
  obtain ⟨entry, hentry, hcopy, hitem⟩ := hv.exists_partner Alike.refl hentry'
  have hkey := isKey_of_member hK horderly.value hentry
  have hkey' := isKey_of_member hK horderly'.value hentry'
  obtain ⟨schema, hassigns⟩ := hcovered entry hentry
  obtain ⟨schema', hassigns', halike⟩ := hshape.exists_assigns hK hkey hkey' hcopy
    AlikeSchema.refl (horderly.shapes hkeyed).2 (horderly'.shapes hkeyed').2
    hkeyed.shape_isPrimitive hassigns
  exact ⟨entry, hentry, schema, schema', hitem, hassigns, hassigns', halike⟩

end

/-- An operation that both checks may come to tells the two arrangements of a value apart:
it holds of the value in the first one only. -/
def Discerned (holds : Value → Value → Prop) (d v d' v' : Value) : Prop :=
  ∃ p x x', p.Operation ∧ Part (d, v) (p, x) ∧ Part (d', v') (p, x') ∧ Alike x x' ∧
    holds p x ∧ ¬ holds p x'

/-- A schema without predicates and a value, both in two arrangements that no operation
tells apart. -/
structure Counterparts (K : Value → Prop) (holds : Value → Value → Prop) (d v d' v' : Value) :
    Prop where
  quiet : d.Quiet
  schemas : AlikeSchema d d'
  values : Alike v v'
  orderly : ∀ d₁ v₁, Part (d, v) (d₁, v₁) → Orderly K d₁ v₁
  orderly' : ∀ d₁ v₁, Part (d', v') (d₁, v₁) → Orderly K d₁ v₁
  undiscerned : ¬ Discerned holds d v d' v'

/-- Checks of counterparts go on to counterparts. -/
theorem Counterparts.next {s s' x x' : Value} (h : Counterparts K holds d v d' v')
    (hnext : Next (d, v) (s, x)) (hnext' : Next (d', v') (s', x')) (hs : AlikeSchema s s')
    (hx : Alike x x') : Counterparts K holds s x s' x' where
  quiet := hnext.quiet h.quiet
  schemas := hs
  values := hx
  orderly d₁ v₁ hpart := h.orderly d₁ v₁ (.head hnext hpart)
  orderly' d₁ v₁ hpart := h.orderly' d₁ v₁ (.head hnext' hpart)
  undiscerned := by
    rintro ⟨p, y, y', hp, hpart, hpart', hdiffer⟩
    exact h.undiscerned ⟨p, y, y', hp, .head hnext hpart, .head hnext' hpart', hdiffer⟩

/-- A value that conforms to a schema without predicates conforms to it in every
arrangement of both that no operation tells apart. -/
theorem Conforms.rearranged (h : Conforms holds d v) (hK : Coherent K)
    (hcounterparts : Counterparts K holds d v d' v') : Conforms holds d' v' := by
  induction h generalizing d' v' with
  | fits hfits =>
      exact .fits (hfits.rearranged hcounterparts.schemas hcounterparts.values.rearranged)
  | @predicate d v p hasks hholds =>
      obtain ⟨rfl, hoperation⟩ := hasks.operation hcounterparts.quiet
      obtain rfl := hcounterparts.schemas.eq_of_operation hoperation
      have hdemand := hoperation.demand_eq
      refine .predicate (.predicate hdemand) ?_
      by_contra hfails
      exact hcounterparts.undiscerned
        ⟨_, v, v', hoperation, .refl, .refl, hcounterparts.values, hholds, hfails⟩
  | @array d schema mark kind items hdemand hitems ih =>
      obtain ⟨schema', hdemand', halike⟩ := hcounterparts.schemas.demand_array hdemand
      obtain ⟨n, kind', items', rfl, halikes⟩ :=
        hcounterparts.values.rearranged.exists_sequence Alike.refl
      refine .array hdemand' ?_
      intro item' hitem'
      obtain ⟨item, hitem, hrelated⟩ := exists_of_forall₂ halikes.flip hitem'
      exact ih item hitem
        (hcounterparts.next (.element hdemand hitem) (.element hdemand' hitem') halike hrelated)
  | @record d v schema hdemand hvalue hmembers ih =>
      obtain ⟨schema', hdemand', halike⟩ := hcounterparts.schemas.demand_record hdemand
      have hv := hcounterparts.values.rearranged
      have hvalue' : v'.isObject = true := hv.isObject_eq ▸ hvalue
      refine .record hdemand' hvalue' ?_
      intro entry' hentry'
      obtain ⟨entry, hentry, -, hrelated⟩ := hv.exists_partner Alike.refl hentry'
      exact ih entry hentry (hcounterparts.next (.value hdemand hvalue hentry)
        (.value hdemand' hvalue' hentry') halike hrelated)
  | union hdemand hschema hconforms ih =>
      obtain ⟨schemas', hdemand', halikes⟩ := hcounterparts.schemas.demand_union hdemand
      obtain ⟨schema', hschema', halike⟩ := exists_of_forall₂ halikes hschema
      exact .union hdemand' hschema' (ih (hcounterparts.next (.alternative hdemand hschema)
        (.alternative hdemand' hschema') halike hcounterparts.values))
  | @literal d l a mark hdemand hmatches =>
      have hdemand' := hcounterparts.schemas.demand_simple hdemand rfl
      cases hcounterparts.values.rearranged with
      | same | atom => exact .literal hdemand' hmatches
  | @keyed d v declared shape hkeyed hdeclared hcovered hmembers ih =>
      have hv := hcounterparts.values.rearranged
      have horderly := hcounterparts.orderly d v .refl
      have horderly' := hcounterparts.orderly' d' v' .refl
      obtain ⟨declared', shape', hkeyed', hdeclareds, hshapes⟩ :=
        hkeyed.rearranged hcounterparts.schemas hv
      refine .keyed hkeyed' ?_ ?_ ?_
      · exact hdeclared.rearranged hK hkeyed hkeyed' hv horderly horderly' hdeclareds
      · intro entry' hentry'
        obtain ⟨-, -, -, schema', -, -, hassigns', -⟩ := exists_member_of_rearranged hK hkeyed
          hkeyed' hv horderly horderly' hshapes hcovered hentry'
        exact ⟨schema', hassigns'⟩
      · intro entry' hentry' schema₁ hassigns₁
        obtain ⟨entry, hentry, schema, schema', hitem, hassigns, hassigns', halike⟩ :=
          exists_member_of_rearranged hK hkeyed hkeyed' hv horderly horderly' hshapes hcovered
            hentry'
        obtain rfl := hassigns'.unique hassigns₁
        exact ih entry hentry schema hassigns (hcounterparts.next
          (.member hkeyed hentry hassigns) (.member hkeyed' hentry' hassigns₁) halike hitem)

/-! ## Acceptance -/

section

variable {σ : Type} {host : Host σ} {w : World σ}

/-- The check of a value comes to a part that is in trouble. -/
def Troubled (host : Host σ) (d v : Value) (w : World σ) : Prop :=
  ∃ p fault w', Visits host ⟨d, v, w⟩ p ∧ Trouble host p fault w'

/-- A value that conforms is accepted, unless its check comes to trouble. -/
theorem accepted_or_troubled (hconforms : Conforms (Approves host fun _ => True) d v)
    (hquiet : d.Quiet) (w : World σ) :
    ((check host d v).startedIn w).1 = .ok none ∨ Troubled host d v w := by
  have hpure := quiet_pure hquiet host (fun _ => True) v
  rcases hrun : (check host d v).startedIn w with ⟨fault | _ | problem, w'⟩
  · have hfails : Point.run host ⟨d, v, w⟩ = (.error fault, w') := hrun
    obtain ⟨p, hvisits, htrouble⟩ := run_eq_error_iff.mp hfails
    exact .inr ⟨p, fault, w', hvisits, htrouble⟩
  · exact .inl rfl
  · have hrejects := (hpure.settles (w := w) trivial hrun).1
    exact absurd hrejects (hconforms.not_rejects hpure (w := w) trivial problem)

/-- What is accepted in one arrangement is accepted in the other, unless the check there
comes to trouble or an operation tells the arrangements apart. -/
theorem accepted_rearranged (hK : Coherent K) (hd : AlikeSchema d d') (hv : Alike v v')
    (hquiet : d.Quiet) (hquiet' : d'.Quiet)
    (horderly : ∀ d₁ v₁, Part (d, v) (d₁, v₁) → Orderly K d₁ v₁)
    (horderly' : ∀ d₁ v₁, Part (d', v') (d₁, v₁) → Orderly K d₁ v₁)
    (haccepts : ((check host d v).startedIn w).1 = .ok none) :
    ((check host d' v').startedIn w).1 = .ok none ∨ Troubled host d' v' w ∨
      Discerned (Approves host fun _ => True) d v d' v' := by
  by_cases hdiscerned : Discerned (Approves host fun _ => True) d v d' v'
  · exact .inr (.inr hdiscerned)
  · have hpure := quiet_pure hquiet host (fun _ => True) v
    have hrun : (check host d v).startedIn w = (.ok none, _) := Prod.ext haccepts rfl
    have hconforms := conforms_of_accepts hpure (w := w) trivial hrun
    have hconforms' :=
      hconforms.rearranged hK ⟨hquiet, hd, hv, horderly, horderly', hdiscerned⟩
    rcases accepted_or_troubled hconforms' hquiet' w with haccepts' | htroubled
    · exact .inl haccepts'
    · exact .inr (.inl htroubled)

/-- A schema without predicates accepts a value in one arrangement of both exactly if it
does so in any other, unless the check there comes to trouble or an operation that is found
in the schema tells the arrangements of a part apart. -/
theorem accepted_in_any_arrangement (hK : Coherent K) (hd : AlikeSchema d d') (hv : Alike v v')
    (hinert : d.Inert) (hinert' : d'.Inert)
    (horderly : ∀ d₁ v₁, Part (d, v) (d₁, v₁) → Orderly K d₁ v₁)
    (horderly' : ∀ d₁ v₁, Part (d', v') (d₁, v₁) → Orderly K d₁ v₁) :
    (((check host d v).startedIn w).1 = .ok none →
      ((check host d' v').startedIn w).1 = .ok none ∨ Troubled host d' v' w ∨
        Discerned (Approves host fun _ => True) d v d' v') ∧
    (((check host d' v').startedIn w).1 = .ok none →
      ((check host d v).startedIn w).1 = .ok none ∨ Troubled host d v w ∨
        Discerned (Approves host fun _ => True) d' v' d v) := by
  have hquiet : d.Quiet := .inl hinert
  have hquiet' : d'.Quiet := .inl hinert'
  exact ⟨accepted_rearranged hK hd hv hquiet hquiet' horderly horderly',
    accepted_rearranged hK hd.symm hv.symm hquiet' hquiet horderly' horderly⟩

end

/-- A mapping of two entries. -/
def pair (a b : Value) : Value := .dict [(.text "a", a), (.text "b", b)]

/-- The same entries in a mapping of another kind, and in the other order. -/
def swapped (a b : Value) : Value := .mapping 0 .ordered [(.text "b", b), (.text "a", a)]

theorem pair_alike_swapped (a b : Value) : Alike (pair a b) (swapped a b) :=
  .of_perm (.swap _ _ _)

theorem pair_wellKeyed (hK : Coherent K) (a b : Value) : (pair a b).WellKeyed K := by
  refine ⟨?_, List.pairwise_pair.mpr rfl⟩
  intro e he
  rcases List.mem_pair.mp he with rfl | rfl <;> exact ⟨hK.names _, rfl⟩

theorem swapped_wellKeyed (hK : Coherent K) (a b : Value) : (swapped a b).WellKeyed K := by
  refine ⟨?_, List.pairwise_pair.mpr rfl⟩
  intro e he
  rcases List.mem_pair.mp he with rfl | rfl <;> exact ⟨hK.names _, rfl⟩

/-- Entries under distinct keys that all ask for numbers. -/
structure Numbered (K : Value → Prop) (entries : List (Value × Value)) : Prop where
  keys : (dict entries).WellKeyed K
  items : ∀ e ∈ entries, e.2 = Schema.ofFamily .number

section

variable {own others required optional entries : List (Value × Value)} {key schema : Value}

theorem Numbered.eq_of_holds (h : Numbered K own) (hholds : (dict own).Holds key schema) :
    schema = Schema.ofFamily .number := by
  obtain ⟨e, he, -, rfl⟩ := Container.mapping.exists_member hholds
  exact h.items e he

theorem Numbered.merge (h : Numbered K own) (hothers : Numbered K others) :
    Numbered K (mergeEntries own others) :=
  ⟨mergeEntries_wellKeyed h.keys hothers.keys.1,
    forall_item_mergeEntries (· = Schema.ofFamily .number) h.items hothers.items⟩

/-- The required entries of an object schema. -/
theorem Numbered.collect (h : Numbered K required) : Numbered K (collectEntries required) :=
  Numbered.merge ⟨wellKeyed_nil, by simp⟩ h

section

variable (hrequired : Numbered K required) (hoptional : Numbered K optional)

include hrequired hoptional

/-- A check of primitive members against numbers goes no deeper than to these. -/
theorem numbers_parts {kind : MappingKind} (hentries : ∀ e ∈ entries, e.2.isPrimitive = true)
    {part : Value × Value}
    (h : Part (Schema.optionalOf required optional, .mapping 0 kind entries) part) :
    part = (Schema.optionalOf required optional, .mapping 0 kind entries) ∨
      part.1 = Schema.ofFamily .number ∧ part.2.isPrimitive = true := by
  have hothers := hrequired.collect.merge hoptional
  apply h.invariant (.inl rfl)
  rintro ⟨d, v⟩ q (hpart | ⟨hschema, hitem⟩) hnext
  · obtain ⟨rfl, rfl⟩ := Prod.mk.inj hpart
    right
    cases hnext with
    | value hdemand | alternative hdemand => cases hdemand
    | @member _ _ _ _ _ entry hkeyed hentry hkey =>
        cases hkeyed with
        | shape hdemand => cases hdemand
        | optional hdemand =>
            cases hdemand
            refine ⟨?_, hentries entry hentry⟩
            rcases hkey with hholds | ⟨-, hholds⟩
            · exact hothers.eq_of_holds hholds
            · exact hothers.eq_of_holds hholds
  · obtain rfl : d = _ := hschema
    cases hnext with
    | element hdemand | value hdemand | alternative hdemand => cases hdemand
    | member hkeyed => rcases hkeyed with ⟨⟨⟩⟩ | ⟨⟨⟩⟩

theorem numbers_orderly {kind : MappingKind} (hkeys : (Value.mapping 0 kind entries).WellKeyed K)
    (hentries : ∀ e ∈ entries, e.2.isPrimitive = true) (d₁ v₁ : Value)
    (h : Part (Schema.optionalOf required optional, .mapping 0 kind entries) (d₁, v₁)) :
    Orderly K d₁ v₁ := by
  rcases numbers_parts hrequired hoptional hentries h with hpart | ⟨hschema, hitem⟩
  · obtain ⟨rfl, rfl⟩ := Prod.mk.inj hpart
    refine ⟨hkeys, ?_⟩
    intro declared shape hkeyed
    cases hkeyed with
    | shape hdemand => cases hdemand
    | optional hdemand =>
        cases hdemand
        exact ⟨hrequired.collect.keys, (hrequired.collect.merge hoptional).keys⟩
  · obtain rfl : d₁ = _ := hschema
    refine ⟨?_, ?_⟩
    · cases v₁ with
      | mapping => cases hitem
      | _ => trivial
    · intro declared shape hkeyed
      rcases hkeyed with ⟨⟨⟩⟩ | ⟨⟨⟩⟩

theorem numbers_inert : (Schema.optionalOf required optional).Inert := by
  refine .intro rfl ?_
  intro part hpart
  obtain ⟨e, he, rfl⟩ := List.mem_map.mp hpart
  have hnumber : e.2 = Schema.ofFamily .number := by
    rcases List.mem_append.mp he with hown | hothers
    · exact hrequired.collect.items e hown
    · exact (hrequired.collect.merge hoptional).items e hothers
  rw [hnumber]
  exact inert_of_contents rfl rfl

end

end

/-- Two numbers. -/
def numberPair : List (Value × Value) :=
  [(.text "a", Schema.ofFamily .number), (.text "b", Schema.ofFamily .number)]

/-- The same in the other order. -/
def swappedNumbers : List (Value × Value) :=
  [(.text "b", Schema.ofFamily .number), (.text "a", Schema.ofFamily .number)]

/-- Another number. -/
def spareNumber : List (Value × Value) := [(.text "c", Schema.ofFamily .number)]

section

variable (hK : Coherent K)

include hK

theorem numberPair_numbered : Numbered K numberPair :=
  ⟨pair_wellKeyed hK _ _, by simp [numberPair]⟩

theorem swappedNumbers_numbered : Numbered K swappedNumbers :=
  ⟨swapped_wellKeyed hK _ _, by simp [swappedNumbers]⟩

theorem spareNumber_numbered : Numbered K spareNumber := by
  refine ⟨⟨?_, List.pairwise_singleton _ _⟩, by simp [spareNumber]⟩
  intro e he
  obtain rfl := List.mem_singleton.mp he
  exact ⟨hK.names _, rfl⟩

end

/-- Two numbers are accepted in either arrangement of theirs and of the keys that are
required, where a third one may follow. -/
theorem accepted_in_any_arrangement_pair :
    (((check agreeable (Schema.optionalOf numberPair spareNumber)
          (pair (.int 1) (.int 2))).startedIn calm).1 = .ok none →
      ((check agreeable (Schema.optionalOf swappedNumbers spareNumber)
          (swapped (.int 1) (.int 2))).startedIn calm).1 = .ok none ∨
        Troubled agreeable (Schema.optionalOf swappedNumbers spareNumber)
          (swapped (.int 1) (.int 2)) calm ∨
        Discerned (Approves agreeable fun _ => True) (Schema.optionalOf numberPair spareNumber)
          (pair (.int 1) (.int 2)) (Schema.optionalOf swappedNumbers spareNumber)
          (swapped (.int 1) (.int 2))) ∧
    (((check agreeable (Schema.optionalOf swappedNumbers spareNumber)
          (swapped (.int 1) (.int 2))).startedIn calm).1 = .ok none →
      ((check agreeable (Schema.optionalOf numberPair spareNumber)
          (pair (.int 1) (.int 2))).startedIn calm).1 = .ok none ∨
        Troubled agreeable (Schema.optionalOf numberPair spareNumber)
          (pair (.int 1) (.int 2)) calm ∨
        Discerned (Approves agreeable fun _ => True) (Schema.optionalOf swappedNumbers spareNumber)
          (swapped (.int 1) (.int 2)) (Schema.optionalOf numberPair spareNumber)
          (pair (.int 1) (.int 2))) := by
  have hK := stored_coherent fun _ => null
  have hpair := numberPair_numbered hK
  have hswapped := swappedNumbers_numbered hK
  have hspare := spareNumber_numbered hK
  apply accepted_in_any_arrangement hK
  · exact .optionalOf hK hpair.keys hswapped.keys hspare.keys hspare.keys
      (.of_perm AlikeSchema.refl (.swap _ _ _)) (.refl AlikeSchema.refl _)
  · exact pair_alike_swapped _ _
  · exact numbers_inert hpair hspare
  · exact numbers_inert hswapped hspare
  · exact numbers_orderly hpair hspare (pair_wellKeyed hK _ _) (by simp [isPrimitive, int])
  · exact numbers_orderly hswapped hspare (swapped_wellKeyed hK _ _) (by simp [isPrimitive, int])

/-- Two numbers in a sequence of some kind. -/
def numbersAs (mark : Nat) (kind : SequenceKind) : Value := .sequence mark kind [.int 1, .int 2]

/-- A double-ended queue that keeps a tuple of two numbers. -/
def queueOfTuple : Value := .bag 1 .deque [numbersAs 2 .tuple]

/-- A host with the usual operations. -/
def operating : Host Unit := { agreeable with operation := applyMethod }

-- The queue contains its tuple and no list: here an operation tells two arrangements apart.
example :
    ((check operating queueOfTuple (.dict [(.text "__contains__",
        numbersAs 2 .tuple)])).startedIn calm).1.map Option.isNone = .ok true ∧
      ((check operating queueOfTuple (.dict [(.text "__contains__",
        numbersAs 3 .list)])).startedIn calm).1.map Option.isNone = .ok false :=
  ⟨by with_unfolding_all rfl, by with_unfolding_all rfl⟩

/-- A text and a number that refuses to be compared, or anything else. -/
def signalingPairOrAny : Value :=
  .tagged 0 .union (.union [pair (Schema.ofFamily .string) signaling, Schema.anything])

/-- A mapping is accepted in one order of its entries, and its check fails in the other.
What it would be accepted for comes after a mismatch in the first alternative, and in the
other order the check comes to a comparison without an answer before that mismatch. -/
theorem order_decides_failure :
    Alike (pair (.int 1) signaling) (swapped (.int 1) signaling) ∧ signalingPairOrAny.Inert ∧
      ((check agreeable signalingPairOrAny (pair (.int 1) signaling)).startedIn calm).1 =
        .ok none ∧
      ((check agreeable signalingPairOrAny (swapped (.int 1) signaling)).startedIn calm).1 =
        .error .invalidDecimal := by
  refine ⟨pair_alike_swapped _ _, .intro rfl ?_, rfl, rfl⟩
  intro part hpart
  rcases List.mem_pair.mp hpart with rfl | rfl
  · refine .intro rfl ?_
    intro item hitem
    rcases List.mem_pair.mp hitem with rfl | rfl <;> exact inert_of_contents rfl rfl
  · exact inert_of_contents rfl rfl

end Check

end ShapeCheck
