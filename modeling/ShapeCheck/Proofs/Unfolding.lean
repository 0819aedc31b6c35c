import ShapeCheck.Proofs.Demand
import ShapeCheck.Proofs.Keys

/-!
# A check unfolds into its own step

A check goes down a bounded number of steps.  Every part that a step goes on to is less
deep than the schema it came from, so the bound is never reached, and a check is what one
step makes of checks (`check_eq_meet`).  All later proofs start from this equation.
-/

namespace ShapeCheck

namespace Value

/-! ## The descent of parts -/

theorem descent_le_descentItems {items : List Value} {v : Value} (hv : v ∈ items) :
    v.descent ≤ descentItems items := by
  induction items with
  | nil => cases hv
  | cons head tail ih =>
      rw [descentItems_cons]
      rcases List.mem_cons.mp hv with rfl | htail
      · exact Nat.le_max_left ..
      · exact Nat.le_trans (ih htail) (Nat.le_max_right ..)

theorem descent_le_descentEntries {entries : List (Value × Value)} {e : Value × Value}
    (he : e ∈ entries) : e.2.descent ≤ descentEntries entries := by
  induction entries with
  | nil => cases he
  | cons head tail ih =>
      rw [descentEntries_cons]
      rcases List.mem_cons.mp he with rfl | htail
      · exact Nat.le_max_left ..
      · exact Nat.le_trans (ih htail) (Nat.le_max_right ..)

theorem descent_le_descentFields {fields : List (String × Value)} {name : String} {v : Value}
    (hv : fields.lookup name = some v) : v.descent ≤ descentFields fields := by
  induction fields with
  | nil => simp at hv
  | cons head tail ih =>
      rw [descentFields_cons]
      rw [List.lookup_cons] at hv
      split at hv
      · obtain rfl : head.2 = v := by simpa using hv
        exact Nat.le_max_left ..
      · exact Nat.le_trans (ih hv) (Nat.le_max_right ..)

theorem descentEntries_fieldEntries (fields : List (String × Value)) :
    descentEntries (fieldEntries fields) = descentFields fields := by
  induction fields with
  | nil => rfl
  | cons head tail ih =>
      change descentEntries ((text head.1, head.2) :: fieldEntries tail) = _
      rw [descentEntries_cons, descentFields_cons, ih]

theorem descent_dict_fieldEntries (fields : List (String × Value)) :
    (dict (fieldEntries fields)).descent = descentFields fields + 1 := by
  rw [dict, descent_mapping, descentEntries_fieldEntries]

theorem descentFields_le_descentLayers {layers : List (Layer Value)} {layer : Layer Value}
    (hlayer : layer ∈ layers) : descentFields layer.attrs ≤ descentLayers layers := by
  induction layers with
  | nil => cases hlayer
  | cons head tail ih =>
      rw [descentLayers_cons]
      rcases List.mem_cons.mp hlayer with rfl | htail
      · exact Nat.le_max_left ..
      · exact Nat.le_trans (ih htail) (Nat.le_max_right ..)

theorem descent_le_of_classMember {layers : List (Layer Value)} {name : String} {v : Value}
    (hv : classMember? layers name = some (.attr v)) : v.descent ≤ descentLayers layers := by
  obtain ⟨layer, hlayer, hown⟩ := List.exists_of_findSome?_eq_some hv
  have hlookup : layer.attrs.lookup name = some v := by
    simp only [ownMember?] at hown
    split at hown
    · simp at hown
    · simpa using hown
  exact Nat.le_trans (descent_le_descentFields hlookup)
    (descentFields_le_descentLayers (List.mem_reverse.mp hlayer))

theorem descent_slotDeclaration_le (layers : List (Layer Value)) :
    (slotDeclaration layers).descent ≤ 1 := by
  have htexts (names : List String) : descentItems (names.map text) = 0 := by
    induction names with
    | nil => rfl
    | cons name rest ih =>
        rw [List.map_cons, descentItems_cons, ih]
        rfl
  simp only [slotDeclaration]
  split
  · exact Nat.zero_le 1
  · have hlist (names : List String) : (list (names.map text)).descent = 1 := by
      rw [list, descent_sequence, htexts]
    exact Nat.le_of_eq (hlist _)
  · exact Nat.le_refl 1
  · exact Nat.le_refl 1

theorem descent_handedOut_le {mark : Nat} {layers : List (Layer Value)} (attr : Value) :
    (handedOut (classObject mark layers) attr).descent ≤ attr.descent := by
  unfold handedOut
  split
  · exact Nat.le_refl _
  · exact Nat.zero_le _
  · exact Nat.le_refl _

theorem descent_bound_le {mark : Nat} {layers : List (Layer Value)}
    {slots fields : List (String × Value)} (attr : Value) :
    (bound (object mark layers slots fields) (classObject mark layers) attr).descent ≤
      attr.descent := by
  unfold bound
  split
  · exact Nat.zero_le _
  · exact descent_handedOut_le attr

theorem descent_objectFacility_le {mark : Nat} {layers : List (Layer Value)}
    {slots fields : List (String × Value)} {name : String} {v : Value}
    (hv : objectFacility? mark layers slots fields name = some v) :
    v.descent ≤ descentFields fields + 1 := by
  have hdeclaration := descent_slotDeclaration_le layers
  have hdict := descent_dict_fieldEntries fields
  rcases objectFacility_cases hv with rfl | (rfl | rfl) | rfl | rfl | ⟨-, rfl⟩ | rfl
  · exact Nat.zero_le _
  · exact Nat.zero_le _
  · exact Nat.zero_le _
  · omega
  · omega
  · exact Nat.zero_le _
  · exact Nat.zero_le _

/-- What an object holds under an attribute name goes less deep than the object. -/
theorem descent_lt_of_objectAttribute {mark : Nat} {layers : List (Layer Value)}
    {slots fields : List (String × Value)} {name : String} {v : Value}
    (hv : objectAttribute? mark layers slots fields name = .ok (some v)) :
    v.descent < (object mark layers slots fields).descent := by
  rw [descent_object]
  have hfield {w : Value} (hw : fields.lookup name = some w) :=
    descent_le_descentFields hw
  unfold objectAttribute? at hv
  split at hv
  next =>
    have := descent_le_descentFields (Except.ok.inj hv)
    omega
  next result hmember =>
    obtain rfl := Option.some.inj (Except.ok.inj hv)
    have := descent_le_of_classMember hmember
    rw [descent] at this
    omega
  next => split at hv <;> simp at hv
  next attr _ _ hmember =>
    have hattr := descent_le_of_classMember hmember
    have hbound : (bound (object mark layers slots fields) (classObject mark layers)
        attr).descent ≤ attr.descent := descent_bound_le attr
    obtain rfl := Option.some.inj (Except.ok.inj hv)
    cases hlookup : fields.lookup name with
    | none =>
        rw [Option.getD_none]
        omega
    | some w =>
        have := hfield hlookup
        rw [Option.getD_some]
        omega
  next =>
    have hv := Except.ok.inj hv
    cases hlookup : fields.lookup name with
    | none =>
        rw [hlookup, Option.none_or] at hv
        have := descent_objectFacility_le hv
        omega
    | some w =>
        rw [hlookup, Option.some_or] at hv
        obtain rfl := Option.some.inj hv
        have := hfield hlookup
        omega

theorem descent_method {self : Value} (hself : self.isCallable = false) (name : String) :
    (method self name).descent = 0 := by
  cases self <;> first | rfl | cases hself

theorem descent_typeAttribute {v w : Value} {name : String} (hv : v.isCallable = false)
    (hw : typeAttribute? v name = some w) : w.descent = 0 := by
  rcases typeAttribute_cases hw with rfl | (rfl | ⟨s, rfl⟩) | ⟨-, rfl⟩
  · rfl
  · rfl
  · rfl
  · exact descent_method hv name

theorem demand_eq_shape_iff {d : Value} :
    d.demand = .shape ↔ d.isTagged = false ∧ d.isPrimitive = false ∧ d.isCallable = false := by
  cases d with
  | tagged mark tag form =>
      have hform : Demand.ofTagged tag form ≠ .shape := by
        cases form <;> cases tag <;> nofun
      simp [demand, isTagged, hform]
  | atom => simp [demand, isPrimitive]
  | _ => simp [demand, isTagged, isPrimitive]

theorem descent_pos_of_shape {d : Value} (hd : d.demand = .shape) : 0 < d.descent := by
  obtain ⟨htagged, hprimitive, hcallable⟩ := demand_eq_shape_iff.mp hd
  cases d with
  | atom => exact absurd hprimitive Bool.true_eq_false.mp
  | tagged => exact absurd htagged Bool.true_eq_false.mp
  | classObject | function | method | applied | native | guard =>
      exact absurd hcallable Bool.true_eq_false.mp
  | decorated bindsClass inner =>
      obtain rfl : bindsClass = true := by simpa [isCallable] using hcallable
      exact Nat.succ_pos _
  | _ => exact Nat.succ_pos _

theorem descent_lt_of_kindAttribute {v w : Value} {name : String} (hv : v.demand = .shape)
    (hw : kindAttribute? v name = some w) : w.descent < v.descent := by
  have hcallable := (demand_eq_shape_iff.mp hv).2.2
  rcases kindAttribute_cases hcallable hw with ⟨_, _, rfl⟩ | ⟨_, fields, rfl, hfield | rfl⟩ | rfl
  · exact descent_pos_of_shape hv
  · exact Nat.lt_succ_of_le (Nat.le_succ_of_le (descent_le_descentFields hfield))
  · rw [descent_dict_fieldEntries]
    exact Nat.lt_succ_self _
  · exact Nat.lt_succ_self _

/-- What a shape holds under an attribute name goes less deep than the shape. -/
theorem descent_lt_of_attribute {d w : Value} {name : String} (hd : d.demand = .shape)
    (hw : d.attribute? name = .ok (some w)) : w.descent < d.descent := by
  have hcallable := (demand_eq_shape_iff.mp hd).2.2
  cases d with
  | object => exact descent_lt_of_objectAttribute hw
  | classObject => cases hcallable
  | _ =>
      rcases Option.or_eq_some_iff.mp (Except.ok.inj hw) with hkind | ⟨-, htype⟩
      · exact descent_lt_of_kindAttribute hd hkind
      · exact descent_typeAttribute hcallable htype ▸ descent_pos_of_shape hd

theorem descent_le_of_entryAt {entries : List (Value × Value)} {key : Value}
    {e : Value × Value} (he : entryAt? entries key = some e) :
    e.2.descent ≤ descentEntries entries :=
  descent_le_descentEntries (List.mem_of_find?_eq_some he)

theorem descent_le_of_elementAt {items : List Value} {i : Int} {v : Value}
    (hv : elementAt items i = .ok v) : v.descent ≤ descentItems items := by
  simp only [elementAt] at hv
  generalize (if i < 0 then i + (items.length : Int) else i) = place at hv
  split at hv
  next => exact absurd hv (by simp)
  next =>
    split at hv
    next hfound =>
      obtain rfl := Except.ok.inj hv
      exact descent_le_descentItems (List.mem_of_getElem? hfound)
    next => exact absurd hv (by simp)

/-- A present key of a mapping finds the value of an entry. -/
theorem exists_entryAt_of_holds {mark : Nat} {kind : MappingKind}
    {entries : List (Value × Value)} {key schema : Value}
    (h : (mapping mark kind entries).Holds key schema) :
    ∃ e, entryAt? entries key = some e ∧ e.2 = schema := by
  obtain ⟨hkey, hget⟩ := h
  simp only [hasKey] at hkey
  split at hkey
  next hhashable =>
    have hfound : (entryAt? entries key).isSome := by
      rw [entryAt?_isSome]
      simpa using hkey
    obtain ⟨e, he⟩ := Option.isSome_iff_exists.mp hfound
    refine ⟨e, he, ?_⟩
    simpa [get, hhashable, he] using hget
  next => exact absurd hkey (by simp)

theorem descent_le_of_mapping_holds {mark : Nat} {kind : MappingKind}
    {entries : List (Value × Value)} {key schema : Value}
    (h : (mapping mark kind entries).Holds key schema) :
    schema.descent ≤ descentEntries entries := by
  obtain ⟨e, he, rfl⟩ := exists_entryAt_of_holds h
  exact descent_le_of_entryAt he

/-- What a shape holds under a key goes less deep than the shape. -/
theorem Holds.descent_lt {shape key schema : Value} (hshape : shape.demand = .shape)
    (h : shape.Holds key schema) : schema.descent < shape.descent := by
  cases shape with
  | mapping mark kind entries =>
      have := descent_le_of_mapping_holds h
      rw [descent_mapping]
      omega
  | sequence mark kind items =>
      have hget := h.2
      cases key with
      | atom m a =>
          simp only [get] at hget
          split at hget
          next =>
            have := descent_le_of_elementAt hget
            rw [descent_sequence]
            omega
          next => exact absurd hget (by simp)
      | _ => exact absurd hget (by simp [get])
  | _ =>
      obtain ⟨name, -, hattribute⟩ := HasAttributes.holds_iff ⟨rfl, rfl⟩ |>.mp h
      exact descent_lt_of_attribute hshape hattribute

theorem Assigns.descent_lt {shape key schema : Value} (hshape : shape.demand = .shape)
    (h : shape.Assigns key schema) : schema.descent < shape.descent := by
  rcases h with h | h
  · exact h.descent_lt hshape
  · exact h.2.descent_lt hshape

theorem Assigns.descent_le {entries : List (Value × Value)} {key schema : Value}
    (h : (dict entries).Assigns key schema) : schema.descent ≤ descentEntries entries := by
  rcases h with h | h
  · exact descent_le_of_mapping_holds h
  · exact descent_le_of_mapping_holds h.2

end Value

/-! ## The descent of demands -/

namespace Demand

/-- How deep the schemas go that a demand is made of. -/
def descent : Demand → Nat
  | checker _ p => p.descent + 1
  | array element => element.descent + 1
  | record schema => schema.descent + 1
  | optional _ entries => Value.descentEntries entries + 1
  | union schemas => Value.descentItems schemas + 1
  | _ => 0

end Demand

theorem Value.descent_demand_le (d : Value) : d.demand.descent ≤ d.descent := by
  cases d with
  | tagged mark tag form =>
      rw [Value.descent_tagged]
      cases form <;> cases tag <;> first | exact Nat.zero_le _ | exact Nat.le_refl _
  | atom => exact Nat.zero_le _
  | _ =>
      simp only [Value.demand]
      split <;> exact Nat.zero_le _

/-! ## A step depends on checks of less deep schemas only -/

namespace Run

variable {σ α : Type}

theorem firstMismatch_congr {test test' : α → Run σ Outcome} {items : List α}
    (htest : ∀ item ∈ items, test item = test' item) :
    firstMismatch test items = firstMismatch test' items := by
  induction items with
  | nil => rfl
  | cons head tail ih =>
      rw [firstMismatch, firstMismatch, htest head List.mem_cons_self,
        ih fun item hitem => htest item (List.mem_cons_of_mem _ hitem)]

theorem eachMember_congr {listing : Listing} {test test' : Value × Value → Run σ Outcome}
    (htest : ∀ m ∈ listing.members, test m = test' m) :
    eachMember listing test = eachMember listing test' := by
  rw [eachMember, eachMember, firstMismatch_congr htest]

theorem rejections_congr {test test' : α → Run σ Outcome} {items : List α}
    (htest : ∀ item ∈ items, test item = test' item) :
    rejections test items = rejections test' items := by
  induction items with
  | nil => rfl
  | cons head tail ih =>
      rw [rejections, rejections, htest head List.mem_cons_self,
        ih fun item hitem => htest item (List.mem_cons_of_mem _ hitem)]

end Run

namespace Check

open Run

variable {σ : Type} {host : Host σ} {rec rec' : Value → Value → Run σ Outcome}

theorem descent_callee (f : Value) : (callee f).descent = f.descent := by
  fun_induction callee f with
  | case1 mark f ih => exact ih
  | case2 f ih => exact ih
  | case3 | case4 | case5 => rfl

theorem invoke_congr {f : Value}
    (hrec : ∀ d v, d.descent < f.descent → rec d v = rec' d v) (v : Value) :
    invoke host rec f v = invoke host rec' f v := by
  have hdescent := descent_callee f
  unfold invoke
  cases hcallee : callee f with
  | function mark name attrs schema =>
      cases schema with
      | none => rfl
      | some schema =>
          rw [hcallee, Value.descent_function] at hdescent
          simp only [hrec schema v (by omega)]
  | guard mark name schema =>
      rw [hcallee, Value.descent_guard] at hdescent
      simp only [hrec schema v (by omega)]
  | tagged mark tag form => cases form <;> rfl
  | _ => rfl

theorem predicate_congr {f : Value}
    (hrec : ∀ d v, d.descent < f.descent → rec d v = rec' d v) (v : Value) :
    predicate host rec f v = predicate host rec' f v := by
  rw [predicate, predicate, invoke_congr hrec]

theorem member_congr {shape : Value} {strict : Bool}
    (hrec : ∀ key schema v, shape.Assigns key schema → rec schema v = rec' schema v)
    (entry : Value × Value) :
    member rec shape strict entry = member rec' shape strict entry := by
  obtain ⟨key, item⟩ := entry
  rcases shape.key_cases key with ⟨schema, hkey⟩ | ⟨schema, hkey⟩ | hkey | ⟨fault, hkey⟩
  · rw [member_of_holds hkey, member_of_holds hkey, hrec key schema item (.inl hkey)]
  · rw [member_of_covers hkey, member_of_covers hkey, hrec key schema item (.inr hkey)]
  · rw [member_of_leaves hkey, member_of_leaves hkey]
  · rw [member_of_error hkey, member_of_error hkey]

theorem members_congr {shape : Value} {strict : Bool}
    (hrec : ∀ key schema v, shape.Assigns key schema → rec schema v = rec' schema v)
    (v : Value) : members rec shape v strict = members rec' shape v strict :=
  eachMember_congr fun m _ => member_congr hrec m

theorem element_congr {schema : Value} (hrec : ∀ v, rec schema v = rec' schema v) :
    element rec schema = element rec' schema := by
  funext entry
  simp only [element, hrec]

theorem memberValue_congr {schema : Value} (hrec : ∀ v, rec schema v = rec' schema v) :
    memberValue rec schema = memberValue rec' schema := by
  funext entry
  simp only [memberValue, hrec]

theorem step_congr {d : Value}
    (hrec : ∀ d' v, d'.descent < d.descent → rec d' v = rec' d' v) (v : Value) :
    step host rec d v = step host rec' d v := by
  have hdescent := d.descent_demand_le
  rw [step_eq_meet, step_eq_meet]
  cases hdemand : d.demand with
  | checker f p =>
      rw [hdemand, Demand.descent] at hdescent
      have hp : predicate host rec p v = predicate host rec' p v :=
        predicate_congr (fun d' v hd' => hrec d' v (by omega)) v
      simp only [meet, hp]
  | array schema =>
      rw [hdemand, Demand.descent] at hdescent
      have helement : element rec schema = element rec' schema :=
        element_congr fun v => hrec schema v (by omega)
      simp only [meet, elements, helement]
  | record schema =>
      rw [hdemand, Demand.descent] at hdescent
      have hvalue : memberValue rec schema = memberValue rec' schema :=
        memberValue_congr fun v => hrec schema v (by omega)
      simp only [meet, values, hvalue]
  | optional requiredEntries optionalEntries =>
      rw [hdemand, Demand.descent] at hdescent
      have hassigned (key schema v : Value)
          (h : (Value.dict optionalEntries).Assigns key schema) :
          rec schema v = rec' schema v := by
        have := h.descent_le
        exact hrec schema v (by omega)
      simp only [meet, optionalObject, members_congr hassigned]
  | union schemas =>
      rw [hdemand, Demand.descent] at hdescent
      have hschemas : ∀ schema ∈ schemas, rec schema v = rec' schema v := by
        intro schema hschema
        have := Value.descent_le_descentItems hschema
        exact hrec schema v (by omega)
      simp only [meet, alternatives, rejections_congr hschemas]
  | predicate => simp only [meet, predicate_congr hrec]
  | shape =>
      have hassigned (key schema v : Value) (h : d.Assigns key schema) :
          rec schema v = rec' schema v := hrec schema v (h.descent_lt hdemand)
      simp only [meet, exactShape, members_congr hassigned]
  | _ => rfl

end Check

/-! ## The equation of a check -/

section

variable {σ : Type} (host : Host σ) (d v : Value)

/-- Once there are more steps than the schema is deep, their number does not matter. -/
theorem checkWithin_eq_of_descent_lt {steps steps' : Nat} (hsteps : d.descent < steps)
    (hsteps' : d.descent < steps') : checkWithin host steps d v = checkWithin host steps' d v := by
  induction steps generalizing steps' d v with
  | zero => omega
  | succ steps ih =>
      obtain ⟨steps', rfl⟩ := Nat.exists_eq_succ_of_ne_zero (by omega : steps' ≠ 0)
      exact Check.step_congr (fun d' v' hd' => ih d' v' (by omega) (by omega)) v

theorem check_eq_step : check host d v = Check.step host (check host) d v :=
  Check.step_congr
    (fun d' v' hd' => checkWithin_eq_of_descent_lt host d' v' hd' (Nat.lt_succ_self _)) v

/-- A check does what the demand of the schema takes, by checks of parts. -/
theorem check_eq_meet : check host d v = Check.meet host (check host) d v d.demand := by
  rw [check_eq_step, Check.step_eq_meet]

end

/-! ## The check of a part, by its demand -/

namespace Check

open Run

variable {σ : Type} {host : Host σ} {d v schema : Value}

theorem check_of_array (hdemand : d.demand = .array schema) (mark : Nat) (kind : SequenceKind)
    (items : List Value) :
    check host d (.sequence mark kind items) = elements (check host) schema items := by
  rw [check_eq_meet, hdemand, meet]

theorem check_of_record (hdemand : d.demand = .record schema) (hvalue : v.isObject = true) :
    check host d v = values (check host) schema v := by
  rw [check_eq_meet, hdemand, meet, if_pos hvalue]

theorem check_of_optional {own others : List (Value × Value)}
    (hdemand : d.demand = .optional own others) (hvalue : v.isObject = true) :
    check host d v = optionalObject (check host) own others v := by
  rw [check_eq_meet, hdemand, meet, if_pos hvalue]

theorem check_of_union {schemas : List Value} (hdemand : d.demand = .union schemas) (v : Value) :
    check host d v = alternatives (check host) schemas v := by
  rw [check_eq_meet, hdemand, meet]

theorem check_of_shape (hdemand : d.demand = .shape) (hvalue : v.isPrimitive = false) :
    check host d v = exactShape (check host) d v := by
  rw [check_eq_meet, hdemand, meet, if_neg (by simp [hvalue])]

theorem check_of_predicate (hdemand : d.demand = .predicate) (v : Value) :
    check host d v = call host d v >>= fun answer => pure (.ofAnswer answer) := by
  rw [check_eq_meet, hdemand]
  rfl

theorem check_of_checker {f : Family} {p : Value} (hdemand : d.demand = .checker f p)
    (hvalue : f.accepts v = true) :
    check host d v = call host p v >>= fun answer => pure (.ofAnswer answer) := by
  rw [check_eq_meet, hdemand, meet, if_pos hvalue]
  rfl

theorem check_of_literal {l : Atom} (hdemand : d.demand = .literal l) (mark : Nat) (a : Atom) :
    check host d (.atom mark a) =
      lift (a.matchesLiteral l) >>= fun matched =>
        pure (.ofBool matched (.incorrectValue d (.atom mark a))) := by
  rw [check_eq_meet, hdemand]
  rfl

theorem check_of_unknown {tag : Tag} (hdemand : d.demand = .unknown tag) (v : Value) :
    check host d v =
      lift (Value.ofTag tag).shown >>= fun shown => throw (.unknownTag shown) := by
  rw [check_eq_meet, hdemand]
  rfl

end Check

end ShapeCheck
