import ShapeCheck.Proofs.Conformance
import ShapeCheck.Proofs.Containers

/-!
# Schemas without predicates

A schema is inert if there is no predicate in it.  Its check may still come to something
that can be called, for a shape without keys of its own is looked into by attribute name,
and every value has attributes such as its class.  What is found there is an operation: it
answers by the value that it comes with and by its argument alone, and calls no predicate.

Checks against inert schemas are therefore pure whatever the predicates of the caller do.
-/

namespace ShapeCheck

/-- The schemas that a form is made of. -/
def Form.schemas {α : Type} : Form α → List α
  | checker _ p => [p]
  | array e => [e]
  | record v => [v]
  | optional own others => (own ++ others).map Prod.snd
  | union alternatives => alternatives
  | bare | atomic | family _ => []

/-- The schemas that a demand is made of. -/
def Demand.schemas : Demand → List Value
  | checker _ p => [p]
  | array e => [e]
  | record schema => [schema]
  | optional own others => (own ++ others).map Prod.snd
  | union schemas => schemas
  | anything | test _ | nullish | unknown _ | predicate | literal _ | shape => []

namespace Value

/-- The values that serve as schemas if a value does. -/
def contents : Value → List Value
  | sequence _ _ items => items
  | mapping _ _ entries => entries.map Prod.snd
  | record _ fields => fields.map Prod.snd
  | object _ layers slots fields =>
    (layers.flatMap Layer.attrs ++ slots ++ fields).map Prod.snd
  | computed inner | decorated _ inner => [inner]
  | tagged _ _ form => form.schemas
  | _ => []

/-- Tells whether a value asks a predicate when it serves as a schema. -/
def isPredicate : Value → Bool
  | tagged _ _ (.checker ..) => true
  | tagged .. => false
  | v => v.isCallable

/-- A value without predicates in it. -/
inductive Inert : Value → Prop
  | intro {v : Value} (hcallable : v.isPredicate = false)
      (hcontents : ∀ part ∈ v.contents, Inert part) : Inert v

/-- Callables that are found in values without predicates. -/
inductive Operation : Value → Prop
  | classObject {mark : Nat} {layers : List (Layer Value)} : Operation (classObject mark layers)
  | typeOf (v : Value) : Operation (native (typeOf v))
  | method {self : Value} {name : String}
      (hself : Check.callee (method self name) = method self name) : Operation (method self name)

/-- What a check against a value without predicates may come to. -/
def Quiet (v : Value) : Prop := v.Inert ∨ v.Operation

variable {d v w key schema : Value} {fields : List (String × Value)} {name : String}

theorem Inert.isPredicate_eq (h : v.Inert) : v.isPredicate = false := by
  cases h with
  | intro hcallable => exact hcallable

theorem Inert.of_mem_contents (h : v.Inert) (hw : w ∈ v.contents) : w.Inert := by
  cases h with
  | intro _ hcontents => exact hcontents w hw

theorem inert_of_contents (hcallable : v.isPredicate = false) (hcontents : v.contents = []) :
    v.Inert :=
  .intro hcallable (by simp [hcontents])

/-! ## Attributes of values without predicates -/

theorem Inert.of_lookup (hfields : ∀ field ∈ fields, field.2.Inert)
    (hw : fields.lookup name = some w) : w.Inert :=
  hfields (name, w) (mem_of_lookup hw)

theorem inert_fieldEntries (hfields : ∀ field ∈ fields, field.2.Inert) :
    (dict (fieldEntries fields)).Inert := by
  refine .intro rfl ?_
  intro part hpart
  obtain ⟨e, he, rfl⟩ := List.mem_map.mp hpart
  obtain ⟨field, hfield, rfl⟩ := List.mem_map.mp he
  exact hfields field hfield

theorem inert_slotDeclaration (layers : List (Layer Value)) : (slotDeclaration layers).Inert := by
  simp only [slotDeclaration]
  split
  · exact inert_of_contents rfl rfl
  · refine .intro rfl ?_
    intro part hpart
    obtain ⟨name, -, rfl⟩ := List.mem_map.mp hpart
    exact inert_of_contents rfl rfl
  · exact inert_of_contents rfl rfl
  · exact inert_of_contents rfl rfl

/-- An operation of what cannot be called itself is no operation of a guard. -/
theorem operation_method (hv : v.isCallable = false) (name : String) :
    (method v name).Operation := by
  refine .method ?_
  cases v <;> first | rfl | cases hv

theorem quiet_of_typeAttribute (hcallable : v.isCallable = false)
    (hw : typeAttribute? v name = some w) : w.Quiet := by
  rcases typeAttribute_cases hw with rfl | (rfl | ⟨s, rfl⟩) | ⟨-, rfl⟩
  · exact .inr (.typeOf v)
  · exact .inl (inert_of_contents rfl rfl)
  · exact .inl (inert_of_contents rfl rfl)
  · exact .inr (operation_method hcallable name)

theorem inert_of_kindAttribute (hv : v.Inert) (hcallable : v.isCallable = false)
    (hw : kindAttribute? v name = some w) : w.Inert := by
  rcases kindAttribute_cases hcallable hw with ⟨_, _, rfl⟩ | ⟨_, fields, rfl, hitem⟩ | rfl
  · exact inert_of_contents rfl rfl
  · have hfields (field : String × Value) (hfield : field ∈ fields) : field.2.Inert :=
      hv.of_mem_contents (List.mem_map_of_mem hfield)
    rcases hitem with hfield | rfl
    · exact .of_lookup hfields hfield
    · exact inert_fieldEntries hfields
  · exact hv.of_mem_contents List.mem_cons_self

section

variable {mark : Nat} {layers : List (Layer Value)} {slots : List (String × Value)}

theorem quiet_of_objectFacility (hcallable : layers.any Layer.callable = false)
    (hfields : ∀ field ∈ fields, field.2.Inert)
    (hw : objectFacility? mark layers slots fields name = some w) : w.Quiet := by
  rcases objectFacility_cases hw with rfl | (rfl | rfl) | rfl | rfl | ⟨hcall, -⟩ | rfl
  · exact .inr .classObject
  · exact .inl (inert_of_contents rfl rfl)
  · exact .inl (inert_of_contents rfl rfl)
  · exact .inl (inert_slotDeclaration layers)
  · exact .inl (inert_fieldEntries hfields)
  · cases hcallable.symm.trans hcall
  · exact .inr (.method rfl)

/-- What a class hands out of an attribute without predicates is that, or an operation. -/
theorem quiet_of_handedOut (hw : w.Inert) : (handedOut (classObject mark layers) w).Quiet := by
  unfold handedOut
  split
  · cases hw.isPredicate_eq
  · exact .inr (.method rfl)
  · exact .inl hw

theorem Inert.of_classMember (hv : (object mark layers slots fields).Inert)
    (hmember : classMember? layers name = some (.attr w)) : w.Inert := by
  obtain ⟨layer, hlayer, hown⟩ := List.exists_of_findSome?_eq_some hmember
  have hlookup : layer.attrs.lookup name = some w := by
    simp only [ownMember?] at hown
    split at hown
    · simp at hown
    · simpa using hown
  have hattr : (name, w) ∈ layers.flatMap Layer.attrs :=
    List.mem_flatMap.mpr ⟨layer, List.mem_reverse.mp hlayer, mem_of_lookup hlookup⟩
  have hmem := List.mem_append_left fields (List.mem_append_left slots hattr)
  exact hv.of_mem_contents (List.mem_map_of_mem hmem)

theorem quiet_of_objectAttribute (hv : (object mark layers slots fields).Inert)
    (hw : objectAttribute? mark layers slots fields name = .ok (some w)) : w.Quiet := by
  have hslots (slot : String × Value) (hslot : slot ∈ slots) : slot.2.Inert :=
    hv.of_mem_contents (List.mem_map_of_mem (by simp [hslot]))
  have hfields (field : String × Value) (hfield : field ∈ fields) : field.2.Inert :=
    hv.of_mem_contents (List.mem_map_of_mem (by simp [hfield]))
  unfold objectAttribute? at hw
  split at hw
  next => exact .inl (.of_lookup hslots (Except.ok.inj hw))
  next result hmember =>
    obtain rfl := Option.some.inj (Except.ok.inj hw)
    have hcomputed := hv.of_classMember hmember
    exact .inl (hcomputed.of_mem_contents List.mem_cons_self)
  next => split at hw <;> cases hw
  next attr _ _ hmember =>
    have hattr := hv.of_classMember hmember
    obtain rfl := Option.some.inj (Except.ok.inj hw)
    cases hlookup : fields.lookup name with
    | some u => exact .inl (.of_lookup hfields hlookup)
    | none =>
        rw [Option.getD_none]
        unfold bound
        split
        · cases hattr.isPredicate_eq
        · exact quiet_of_handedOut hattr
  next =>
    rcases Option.or_eq_some_iff.mp (Except.ok.inj hw) with hfield | ⟨-, hfacility⟩
    · exact .inl (.of_lookup hfields hfield)
    · exact quiet_of_objectFacility hv.isPredicate_eq hfields hfacility

end

/-- The attributes of a shape without predicates are quiet. -/
theorem quiet_of_attribute (hd : d.Inert) (hdemand : d.demand = .shape)
    (hw : d.attribute? name = .ok (some w)) : w.Quiet := by
  have hcallable := (demand_eq_shape_iff.mp hdemand).2.2
  cases d with
  | object => exact quiet_of_objectAttribute hd hw
  | classObject => cases hcallable
  | _ =>
      rcases Option.or_eq_some_iff.mp (Except.ok.inj hw) with hkind | ⟨-, htype⟩
      · exact .inl (inert_of_kindAttribute hd hcallable hkind)
      · exact quiet_of_typeAttribute hcallable htype

theorem quiet_of_holds (hd : d.Inert) (hdemand : d.demand = .shape) (h : d.Holds key schema) :
    schema.Quiet := by
  cases d with
  | mapping mark kind entries =>
      obtain ⟨e, he, -, rfl⟩ := Container.mapping.exists_member h
      exact .inl (hd.of_mem_contents (List.mem_map_of_mem he))
  | sequence mark kind items =>
      obtain ⟨i, -, hitem⟩ := holds_sequence_iff.mp h
      exact .inl (hd.of_mem_contents (List.mem_of_getElem? hitem))
  | _ =>
      obtain ⟨name, -, hattribute⟩ := HasAttributes.holds_iff ⟨rfl, rfl⟩ |>.mp h
      exact quiet_of_attribute hd hdemand hattribute

theorem quiet_of_assigns (hd : d.Inert) (hdemand : d.demand = .shape)
    (h : d.Assigns key schema) : schema.Quiet := by
  rcases h with h | h
  · exact quiet_of_holds hd hdemand h
  · exact quiet_of_holds hd hdemand h.2

theorem Operation.demand_eq (h : d.Operation) : d.demand = .predicate := by
  cases h <;> rfl

end Value

namespace Check

open Run Value

variable {σ : Type} {host : Host σ} {W : World σ → Prop} {d v d' v' p schema : Value}
  {w : World σ}

/-! ## Checks against quiet schemas -/

theorem mem_contents_of_demand (h : schema ∈ d.demand.schemas) : schema ∈ d.contents := by
  cases d with
  | tagged mark tag form => cases form <;> cases tag <;> first | exact h | cases h
  | atom => cases h
  | _ =>
      simp only [demand] at h
      split_ifs at h <;> cases h

theorem Asks.isPredicate_eq (h : Asks d v p) : d.isPredicate = true := by
  cases h with
  | predicate hdemand =>
      cases d with
      | tagged mark tag form => cases form <;> cases tag <;> cases hdemand
      | atom => cases hdemand
      | _ =>
          simp only [demand] at hdemand
          split_ifs at hdemand with hcallable
          exact hcallable
  | checker hdemand =>
      cases d with
      | tagged mark tag form =>
          cases form with
          | checker => rfl
          | _ => cases tag <;> cases hdemand
      | atom => cases hdemand
      | _ =>
          simp only [demand] at hdemand
          split_ifs at hdemand

/-- What asks a predicate without having one in it is an operation, and is what it asks. -/
theorem Asks.operation (h : Asks d v p) (hd : d.Quiet) : p = d ∧ d.Operation := by
  rcases hd with hd | hd
  · cases hd.isPredicate_eq.symm.trans h.isPredicate_eq
  · cases h with
    | predicate => exact ⟨rfl, hd⟩
    | checker hdemand => cases hd.demand_eq.symm.trans hdemand

/-- A check against a quiet schema only comes to quiet ones. -/
theorem Next.quiet (h : Next (d, v) (d', v')) (hd : d.Quiet) : d'.Quiet := by
  rcases hd with hd | hd
  · have hcontents (hmem : d' ∈ d.demand.schemas) : d'.Quiet :=
      .inl (hd.of_mem_contents (mem_contents_of_demand hmem))
    cases h with
    | element hdemand => exact hcontents (by simp [hdemand, Demand.schemas])
    | value hdemand => exact hcontents (by simp [hdemand, Demand.schemas])
    | alternative hdemand hschema => exact hcontents (by simp [hdemand, Demand.schemas, hschema])
    | member hkeyed hentry hkey =>
        cases hkeyed with
        | shape hdemand => exact quiet_of_assigns hd hdemand hkey
        | @optional own others hdemand =>
            have hothers : (dict others).Inert := by
              refine .intro rfl ?_
              intro part hpart
              apply hd.of_mem_contents (mem_contents_of_demand _)
              simp only [hdemand, Demand.schemas, List.map_append]
              exact List.mem_append_right _ hpart
            exact quiet_of_assigns hothers rfl hkey
  · have hdemand := hd.demand_eq
    cases h with
    | element hdemand' | value hdemand' | alternative hdemand' =>
        cases hdemand.symm.trans hdemand'
    | member hkeyed =>
        cases hkeyed with
        | shape hdemand' | optional hdemand' => cases hdemand.symm.trans hdemand'

theorem Part.quiet (h : Part (d, v) (d', v')) (hd : d.Quiet) : d'.Quiet :=
  h.invariant (I := fun part => part.1.Quiet) hd fun _ _ hp hnext => hnext.quiet hp

/-- An operation has an answer that depends on nothing else. -/
theorem exists_answer_of_operation (hp : p.Operation) (host : Host σ) (v : Value) :
    ∃ answer, call host p v = lift answer := by
  cases hp with
  | classObject | typeOf => exact ⟨_, rfl⟩
  | @method self name hself =>
      refine ⟨host.operation self name v, ?_⟩
      simp only [call, invoke, hself]

/-- A check against a quiet schema is pure, whatever the predicates of the caller do. -/
theorem quiet_pure (hd : d.Quiet) (host : Host σ) (W : World σ → Prop) (v : Value) :
    Pure host W d v := by
  intro d' v' hpart p hasks
  obtain ⟨rfl, hoperation⟩ := hasks.operation (hpart.quiet hd)
  obtain ⟨answer, hcall⟩ := exists_answer_of_operation hoperation host v'
  rw [hcall]
  exact ⟨answer, settles_lift answer⟩

end Check

end ShapeCheck
