import ShapeCheck.Proofs.Verdicts

/-!
# Keys that a plain shape does not list

A record or an instance serves as a shape by its attributes.  It lists its own fields and
slots, but it also answers to names that its classes define and to those that every object
has.  A value that it accepts has no key without an attribute behind it, and what it holds
under the key conforms to that attribute; yet the attribute need not be one that the shape
lists.
-/

namespace ShapeCheck

namespace Value

/-- Named fields, or an instance that cannot be called and that has fields only if some
class gives room for them. -/
inductive Plain : Value → Prop
  | record {mark : Nat} {fields : List (String × Value)} : Plain (.record mark fields)
  | object {mark : Nat} {layers : List (Layer Value)} {slots fields : List (String × Value)}
      (hcallable : layers.any Layer.callable = false)
      (hroom : layers.any Layer.isOpen = false → fields = []) :
      Plain (.object mark layers slots fields)

/-- The names that a plain value may answer to without listing them. -/
inductive Unlisted : Value → String → Prop
  /-- Names that every object answers to are reserved, and reserved names are not listed. -/
  | reserved {v : Value} {name : String} (hname : isReservedName name = true) : Unlisted v name
  | inherited {mark : Nat} {layers : List (Layer Value)} {slots fields : List (String × Value)}
      {name : String} {attr : Value} (hname : classMember? layers name = some (.attr attr)) :
      Unlisted (.object mark layers slots fields) name
  /-- A class whose name is nothing but underscores holds a private slot under another name
  than the one that is listed. -/
  | hidden {mark : Nat} {layers : List (Layer Value)} {slots fields : List (String × Value)}
      {name : String} {layer : Layer Value} (hlayer : layer ∈ layers)
      (hclass : strippedClassName layer.name = "") (hname : isPrivateName name = true) :
      Unlisted (.object mark layers slots fields) name

theorem Plain.demand_eq {v : Value} (hv : v.Plain) : v.demand = .shape := by
  cases hv with
  | record => rfl
  | object hcallable => simp [demand, isCallable, hcallable]

theorem Plain.hasAttributes {v : Value} (hv : v.Plain) : v.HasAttributes := by
  cases hv <;> exact ⟨rfl, rfl⟩

/-- A field is listed unless its name is reserved. -/
theorem mem_fieldEntries_of_lookup {fields : List (String × Value)} {name : String} {v : Value}
    (hfound : fields.lookup name = some v) (hname : isReservedName name = false) :
    (text name, v) ∈ fieldEntries (openFields fields) := by
  apply List.mem_map.mpr
  refine ⟨(name, v), ?_, rfl⟩
  simpa [openFields, hname] using mem_of_lookup hfound

/-- If no lookup fails, every listed slot that holds something is read. -/
theorem mem_readSlots {read : String → Except Fault (Option Value)} {names : List String}
    {name : String} {v : Value} (hmem : name ∈ names) (hread : read name = .ok (some v))
    (hfault : (readSlots read names).2 = none) : (name, v) ∈ (readSlots read names).1 := by
  induction names with
  | nil => cases hmem
  | cons head tail ih =>
      rw [readSlots] at hfault ⊢
      rcases List.mem_cons.mp hmem with rfl | htail
      · simp [hread]
      · rcases hhead : read head with fault | _ | u
        · simp [hhead] at hfault
        · simp only [hhead] at hfault ⊢
          exact ih htail hfault
        · simp only [hhead] at hfault ⊢
          exact List.mem_cons_of_mem _ (ih htail hfault)

theorem exists_layer_of_classMember {layers : List (Layer Value)} {name owner : String}
    (hname : classMember? layers name = some (.slot owner)) :
    ∃ layer ∈ layers, name ∈ layer.heldSlots := by
  obtain ⟨layer, hlayer, hmember⟩ := List.exists_of_findSome?_eq_some hname
  refine ⟨layer, List.mem_reverse.mp hlayer, ?_⟩
  unfold ownMember? at hmember
  split at hmember
  next hheld => exact List.contains_iff_mem.mp hheld
  next => simp at hmember

/-- A slot is held under its listed name, except for private ones of a class whose name is
nothing but underscores. -/
theorem heldSlots_listed {layer : Layer Value} {name : String} (hname : name ∈ layer.heldSlots) :
    name ∈ layer.listedSlots ∨
      strippedClassName layer.name = "" ∧ isPrivateName name = true := by
  obtain ⟨slot, hslot, rfl⟩ := List.mem_map.mp hname
  by_cases hprivate : isPrivateName slot = true
  · by_cases hclass : strippedClassName layer.name = ""
    · right
      simp [heldSlotName, hclass, hprivate]
    · left
      apply List.mem_map.mpr
      exact ⟨slot, hslot, by simp [heldSlotName, hclass, hprivate]⟩
  · left
    apply List.mem_map.mpr
    exact ⟨slot, hslot, by simp [heldSlotName, listedSlotName, hprivate]⟩

/-- The names of what plain values have without being given it. -/
def plainFacilities : List String :=
  ["__class__", "__doc__", "__module__", "__slots__", "__dict__", "__call__", "__weakref__",
    "__bool__"] ++ Native.commonNames

theorem isReservedName_facilities : ∀ name ∈ plainFacilities, isReservedName name = true := by
  decide +kernel

theorem isReservedName_of_objectFacility {mark : Nat} {layers : List (Layer Value)}
    {slots fields : List (String × Value)} {name : String} {v : Value}
    (hv : objectFacility? mark layers slots fields name = some v) : isReservedName name = true := by
  apply isReservedName_facilities
  have hcommon (h : Native.commonNames.contains name = true) : name ∈ plainFacilities :=
    List.mem_append_right _ (List.contains_iff_mem.mp h)
  unfold objectFacility? at hv
  rcases choice_cases hv with ⟨hclass, -⟩ | hv
  · simp [plainFacilities, hclass]
  rcases choice_cases hv with ⟨hdoc, -⟩ | hv
  · simp [plainFacilities, hdoc]
  rcases choice_cases hv with ⟨hmodule, -⟩ | hv
  · simp [plainFacilities, hmodule]
  rcases choice_cases hv with ⟨hslots, -⟩ | hv
  · simp [plainFacilities, hslots]
  rcases choice_cases hv with ⟨hdict, -⟩ | hv
  · simp [plainFacilities, of_decide_eq_true (Bool.and_eq_true_iff.mp hdict).1]
  rcases choice_cases hv with ⟨hcall, -⟩ | hv
  · simp [plainFacilities, of_decide_eq_true (Bool.and_eq_true_iff.mp hcall).1]
  rcases choice_cases hv with ⟨hweak, -⟩ | hv
  · simp [plainFacilities, of_decide_eq_true (Bool.and_eq_true_iff.mp hweak).1]
  rcases choice_cases hv with ⟨hinherited, -⟩ | hv
  · rcases Bool.or_eq_true_iff.mp hinherited with htruth | hname
    · simp [plainFacilities, of_decide_eq_true (Bool.and_eq_true_iff.mp htruth).1]
    · exact hcommon hname
  · cases hv

theorem isReservedName_of_typeAttribute {mark : Nat} {fields : List (String × Value)}
    {name : String} {v : Value} (hv : typeAttribute? (record mark fields) name = some v) :
    isReservedName name = true := by
  apply isReservedName_facilities
  have hnames : (record mark fields).inheritedNames = Native.commonNames ++ [] := rfl
  unfold typeAttribute? at hv
  rcases choice_cases hv with ⟨hclass, -⟩ | hv
  · simp [plainFacilities, hclass]
  rcases choice_cases hv with ⟨hdoc, -⟩ | hv
  · simp [plainFacilities, hdoc]
  rcases choice_cases hv with ⟨hinherited, -⟩ | hv
  · rw [hnames, List.append_nil] at hinherited
    exact List.mem_append_right _ (List.contains_iff_mem.mp hinherited)
  · cases hv

/-- An attribute of a record that is not reserved is a field. -/
theorem record_attribute {mark : Nat} {fields : List (String × Value)} {name : String}
    {held : Value} (hname : isReservedName name = false)
    (hheld : (record mark fields).attribute? name = .ok (some held)) :
    fields.lookup name = some held := by
  have hopen {facility : String} (hfacility : isReservedName facility = true) :
      name ≠ facility := by
    rintro rfl
    cases hname.symm.trans hfacility
  have hdict := hopen (isReservedName_facilities "__dict__" (by simp [plainFacilities]))
  have hhash : name ≠ "__hash__" :=
    hopen (isReservedName_facilities "__hash__" (by simp [plainFacilities, Native.commonNames]))
  rcases Option.or_eq_some_iff.mp (Except.ok.inj hheld) with hkind | ⟨-, htype⟩
  · simpa [kindAttribute?, hdict, hhash] using hkind
  · cases hname.symm.trans (isReservedName_of_typeAttribute htype)

section

variable {mark : Nat} {layers : List (Layer Value)} {slots fields : List (String × Value)}
  {name : String} {held : Value}

/-- A listing without a fault consists of the slots that were read and of the open fields. -/
theorem object_members (hfault : (object mark layers slots fields).listing.fault = none) :
    (readSlots (object mark layers slots fields).attribute? (listedSlots layers)).2 = none ∧
      (object mark layers slots fields).listing.members =
        fieldEntries ((readSlots (object mark layers slots fields).attribute?
            (listedSlots layers)).1 ++
          if layers.any Layer.isOpen then openFields fields else []) := by
  simp only [listing] at hfault ⊢
  split at hfault
  next => cases hfault
  next hread => rw [hread]; exact ⟨rfl, rfl⟩

/-- An attribute that no class defines is a field, if its name is not reserved. -/
theorem object_field (hname : isReservedName name = false)
    (hclass : classMember? layers name = none)
    (hheld : (object mark layers slots fields).attribute? name = .ok (some held)) :
    fields.lookup name = some held := by
  simp only [attribute?, objectAttribute?, hclass, Except.ok.injEq] at hheld
  rcases Option.or_eq_some_iff.mp hheld with hfield | ⟨-, hfacility⟩
  · exact hfield
  · cases hname.symm.trans (isReservedName_of_objectFacility hfacility)

theorem object_listed_or_unlisted
    (hroom : layers.any Layer.isOpen = false → fields = [])
    (hfault : (object mark layers slots fields).listing.fault = none)
    (hheld : (object mark layers slots fields).attribute? name = .ok (some held))
    (hname : isReservedName name = false) :
    (text name, held) ∈ (object mark layers slots fields).listing.members ∨
      (object mark layers slots fields).Unlisted name := by
  obtain ⟨hread, hmembers⟩ := object_members hfault
  rw [hmembers, fieldEntries, List.map_append, List.mem_append]
  rcases hmember : classMember? layers name with _ | (owner | attr)
  · have hfield := object_field hname hmember hheld
    left; right
    cases hopen : layers.any Layer.isOpen with
    | true => exact mem_fieldEntries_of_lookup hfield hname
    | false => simp [hroom hopen] at hfield
  · obtain ⟨layer, hlayer, hslot⟩ := exists_layer_of_classMember hmember
    rcases heldSlots_listed hslot with hlisted | ⟨hclass, hprivate⟩
    · have hmem : name ∈ listedSlots layers :=
        List.mem_flatten_of_mem (List.mem_map_of_mem hlayer) hlisted
      left; left
      exact List.mem_map_of_mem (mem_readSlots hmem hheld hread)
    · exact .inr (.hidden hlayer hclass hprivate)
  · exact .inr (.inherited hmember)

end

/-- An attribute of a plain value is listed, or its name is one of the unlisted ones. -/
theorem Plain.listed_or_unlisted {v held : Value} {name : String} (hv : v.Plain)
    (hfault : v.listing.fault = none) (hheld : v.attribute? name = .ok (some held)) :
    (Value.text name, held) ∈ v.listing.members ∨ v.Unlisted name := by
  cases hname : isReservedName name with
  | true => exact .inr (.reserved hname)
  | false =>
      cases hv with
      | record => exact .inl (mem_fieldEntries_of_lookup (record_attribute hname hheld) hname)
      | object _ hroom => exact object_listed_or_unlisted hroom hfault hheld hname

/-- A value that is looked into by attribute name has nothing under the wildcard. -/
theorem HasAttributes.holds_of_assigns {v key held : Value} (hv : v.HasAttributes)
    (h : v.Assigns key held) : v.Holds key held := by
  rcases h with h | ⟨-, hwildcard, -⟩
  · exact h
  · rw [hv.hasKey_eq] at hwildcard
    cases hwildcard

end Value

namespace Check

open Run

variable {σ : Type} {host : Host σ} {W : World σ → Prop} {d v : Value} {w : World σ}

theorem listing_fault_of_accepted (hdemand : d.demand = .shape) (hvalue : v.isPrimitive = false)
    (haccepts : ((check host d v).startedIn w).1 = .ok none) : d.listing.fault = none := by
  have hrun : (check host d v).startedIn w = (.ok none, _) := Prod.ext haccepts rfl
  rw [check_of_shape hdemand hvalue, exactShape_eq_ok_none_iff] at hrun
  obtain ⟨w₁, hrequired, -⟩ := hrun
  exact (eachMember_eq_ok_none_iff.mp hrequired).2

/-- An instance with a number as a class attribute and with nothing of its own. -/
def inheritingShape : Value :=
  .object 0 [⟨"C", .absent, [("a", Schema.ofFamily .number)], none, none, none, false⟩] [] []

end Check

end ShapeCheck
