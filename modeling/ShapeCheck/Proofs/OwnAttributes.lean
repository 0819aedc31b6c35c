import ShapeCheck.Proofs.OutlineKeys
import ShapeCheck.Proofs.SelfConformance
import ShapeCheck.Value.Instance

/-!
# The own attributes of an instance

An instance lists the slots of its classes that hold something, base classes first, and
then its fields.  The listing goes by the names that the classes declare, one declaration
after the other, and asks for what each name answers with.

So it is complete and without repetition for ordinary hierarchies, and only for these: a
slot that is declared again is listed again, a private slot of a class whose name is
nothing but underscores is looked up under a name that nothing is held under, and a
declared slot is listed even if its name is reserved.
-/

namespace ShapeCheck.Value

variable {mark : Nat} {layers : List (Layer Value)} {slots fields : List (String × Value)}
  {v v' x : Value} {name : String}

/-! ## What is set on an instance -/

/-- An instance of a hierarchy: made with nothing set, and then given attributes one after
another. -/
inductive Instance (layers : List (Layer Value)) : Value → Prop
  | made {v : Value} (mark : Nat) (hv : instantiate layers = .ok v) :
      Instance layers (v.withMark mark)
  | given {v v' : Value} (name : String) (x : Value) (hv : Instance layers v) (hx : x.Distinct)
      (hset : v.setAttribute name x = .ok v') : Instance layers v'

/-- What an instance holds: nothing twice, only slots that its classes answer with, and
fields only where a class gives room for them. -/
structure Tidy (layers : List (Layer Value)) (slots fields : List (String × Value)) : Prop where
  slots_apart : slots.Pairwise fun slot slot' => slot.1 ≠ slot'.1
  fields_apart : fields.Pairwise fun field field' => field.1 ≠ field'.1
  slot_held : ∀ slot ∈ slots, ∃ owner, classMember? layers slot.1 = some (.slot owner)
  no_room : layers.any Layer.isOpen = false → fields = []

theorem mem_storeField {field : String × Value} (h : field ∈ storeField fields name v) :
    field = (name, v) ∨ field ∈ fields := by
  induction fields with
  | nil => exact .inl (List.mem_singleton.mp h)
  | cons head tail ih =>
      rw [storeField] at h
      split at h
      · rcases List.mem_cons.mp h with rfl | htail
        · exact .inl rfl
        · exact .inr (List.mem_cons_of_mem _ htail)
      · rcases List.mem_cons.mp h with rfl | htail
        · exact .inr List.mem_cons_self
        · exact (ih htail).imp id (List.mem_cons_of_mem _)

/-- Storing a field keeps the names apart. -/
theorem storeField_apart (hapart : fields.Pairwise fun field field' => field.1 ≠ field'.1) :
    (storeField fields name v).Pairwise fun field field' => field.1 ≠ field'.1 := by
  induction hapart with
  | nil => exact List.pairwise_singleton ..
  | @cons head tail hhead htail ih =>
      rw [storeField]
      split
      next hname => exact .cons (fun field hfield => hname ▸ hhead field hfield) htail
      next hname =>
        refine .cons (fun field hfield => ?_) ih
        rcases mem_storeField hfield with rfl | hold
        · exact hname
        · exact hhead field hold

theorem forall₂_of_mapM {α β : Type} {f : α → Except Fault β} {items : List α} {results : List β}
    (h : items.mapM f = .ok results) :
    List.Forall₂ (fun item result => f item = .ok result) items results := by
  induction items generalizing results with
  | nil =>
      obtain rfl := Except.ok.inj h
      exact .nil
  | cons head tail ih =>
      rw [List.mapM_cons, bind_ok_iff] at h
      obtain ⟨result, hhead, h⟩ := h
      obtain ⟨rest, htail, h⟩ := bind_ok_iff.mp h
      obtain rfl := Except.ok.inj h
      exact .cons hhead (ih htail)

/-- Fields that entries are turned into have distinct names if each takes its name from the
text that is its key. -/
theorem apart_of_texts {entries : List (Value × Value)}
    {f : Value × Value → Except Fault (String × Value)}
    (hf : ∀ e field, f e = .ok field → e.1.asText? = some field.1)
    (hentries : entries.Pairwise fun e e' => sameKey e.1 e'.1 = false)
    (h : entries.mapM f = .ok fields) :
    fields.Pairwise fun field field' => field.1 ≠ field'.1 := by
  refine (pairwise_iff_of_forall₂ (forall₂_of_mapM h) ?_).mp hentries
  refine List.pairwise_of_forall fun e e' field field' hfield hfield' => ?_
  rw [← Bool.not_eq_true, sameKey_iff_asText (hf e' field' hfield'), hf e field hfield,
    Option.some_inj]

theorem fieldsOf_apart (hx : x.Distinct) (h : x.fieldsOf = .ok fields) :
    fields.Pairwise fun field field' => field.1 ≠ field'.1 := by
  unfold fieldsOf at h
  split at h
  case h_4 => cases h
  all_goals
    refine apart_of_texts ?_ hx.2 h
    rintro ⟨key, item⟩ field hfield
    dsimp only at hfield
    split at hfield
    · obtain rfl := Except.ok.inj hfield
      rfl
    · cases hfield

theorem withAttribute_apart {fields' : List (String × Value)} (hx : x.Distinct)
    (hapart : fields.Pairwise fun field field' => field.1 ≠ field'.1)
    (h : withAttribute fields name x = .ok fields') :
    fields'.Pairwise fun field field' => field.1 ≠ field'.1 := by
  unfold withAttribute at h
  split at h
  · exact fieldsOf_apart hx h
  · obtain rfl := Except.ok.inj h
    exact storeField_apart hapart

/-- Setting an attribute of an instance stores it in a slot that the classes answer with, or
else among the fields. -/
theorem setAttribute_object {v' : Value}
    (h : (object mark layers slots fields).setAttribute name x = .ok v') :
    (∃ owner, classMember? layers name = some (.slot owner) ∧
      v' = object mark layers (storeField slots name x) fields) ∨
    ∃ fields', layers.any Layer.isOpen = true ∧ withAttribute fields name x = .ok fields' ∧
      v' = object mark layers slots fields' := by
  have hopen (h : (if layers.any Layer.isOpen then
        (withAttribute fields name x).map fun fields => object mark layers slots fields
      else .error .missingAttribute) = .ok v') :
      ∃ fields', layers.any Layer.isOpen = true ∧ withAttribute fields name x = .ok fields' ∧
        v' = object mark layers slots fields' := by
    split at h
    next hroom =>
      rcases hfields : withAttribute fields name x with fault | fields'
      · simp [hfields, Except.map] at h
      · rw [hfields] at h
        exact ⟨fields', hroom, rfl, (Except.ok.inj h).symm⟩
    next => cases h
  simp only [setAttribute] at h
  split at h
  next owner hmember => exact .inl ⟨owner, hmember, (Except.ok.inj h).symm⟩
  next => cases h
  next => cases h
  next => exact .inr (hopen h)
  next => exact .inr (hopen h)

/-- Setting an attribute keeps an instance tidy. -/
theorem Tidy.set (h : Tidy layers slots fields) (hx : x.Distinct)
    (hset : (object mark layers slots fields).setAttribute name x = .ok v') :
    ∃ slots' fields', v' = object mark layers slots' fields' ∧ Tidy layers slots' fields' := by
  rcases setAttribute_object hset with ⟨owner, hmember, rfl⟩ | ⟨fields', hroom, hfields, rfl⟩
  · refine ⟨_, _, rfl, storeField_apart h.slots_apart, h.fields_apart, ?_, h.no_room⟩
    intro slot hslot
    rcases mem_storeField hslot with rfl | hold
    · exact ⟨owner, hmember⟩
    · exact h.slot_held slot hold
  · refine ⟨_, _, rfl, h.slots_apart, withAttribute_apart hx h.fields_apart hfields,
      h.slot_held, ?_⟩
    intro hclosed
    exact absurd hroom (by simp [hclosed])

theorem instantiate_eq (hv : instantiate layers = .ok v) : v = object 0 layers [] [] := by
  obtain ⟨_, -, hobject⟩ := bind_ok_iff.mp hv
  exact (Except.ok.inj hobject).symm

/-- Whatever was set on it, an instance is tidy. -/
theorem Instance.exists_tidy (hv : Instance layers v) :
    ∃ mark slots fields, v = object mark layers slots fields ∧ Tidy layers slots fields := by
  induction hv with
  | made mark hv =>
      rw [instantiate_eq hv]
      exact ⟨mark, [], [], rfl, .nil, .nil, nofun, fun _ => rfl⟩
  | given name x hv hx hset ih =>
      obtain ⟨mark, slots, fields, rfl, htidy⟩ := ih
      obtain ⟨slots', fields', rfl, htidy'⟩ := htidy.set hx hset
      exact ⟨mark, slots', fields', rfl, htidy'⟩

theorem Instance.tidy (hv : Instance layers (object mark layers slots fields)) :
    Tidy layers slots fields := by
  obtain ⟨_, _, _, hobject, htidy⟩ := hv.exists_tidy
  cases hobject
  exact htidy

/-! ## What is listed -/

/-- Tells whether a value has an attribute under a name. -/
def answers (v : Value) (name : String) : Bool :=
  match v.attribute? name with
  | .ok (some _) => true
  | _ => false

/-- The names under which a value lists its members, in order. -/
def listedNames (v : Value) : List String := v.listing.members.filterMap fun e => e.1.asText?

/-- A private slot of a class whose name is nothing but underscores. -/
def Misnamed (layers : List (Layer Value)) (name : String) : Prop :=
  ∃ layer ∈ layers, strippedClassName layer.name = "" ∧ isPrivateName name = true ∧
    name ∈ layer.slotNames

theorem readSlots_fault_none_iff {read : String → Except Fault (Option Value)}
    {names : List String} :
    (readSlots read names).2 = none ↔ ∀ name ∈ names, ∀ fault, read name ≠ .error fault := by
  constructor
  · intro h
    induction names with
    | nil => exact List.forall_mem_nil _
    | cons head tail ih =>
        rw [readSlots] at h
        refine List.forall_mem_cons.mpr ⟨fun fault hfails => ?_, ?_⟩
        · simp [hfails] at h
        · rcases hhead : read head with fault | _ | item
          · simp [hhead] at h
          · simp only [hhead] at h
            exact ih h
          · simp only [hhead] at h
            exact ih h
  · intro h
    rw [Option.eq_none_iff_forall_ne_some]
    intro fault hfault
    obtain ⟨name, hname, hfails⟩ := readSlots_fault hfault
    exact h name hname fault hfails

/-- Of the declared slots those are listed that answer with something, each as often as it is
declared. -/
theorem map_fst_readSlots {names : List String}
    (hfault : (readSlots v.attribute? names).2 = none) :
    (readSlots v.attribute? names).1.map Prod.fst = names.filter v.answers := by
  induction names with
  | nil => rfl
  | cons head tail ih =>
      rw [readSlots] at hfault ⊢
      rcases hhead : v.attribute? head with fault | _ | item
      · simp [hhead] at hfault
      · simp only [hhead] at hfault ⊢
        rw [List.filter_cons_of_neg (by simp [answers, hhead]), ih hfault]
      · simp only [hhead] at hfault ⊢
        rw [List.filter_cons_of_pos (by simp [answers, hhead]), List.map_cons, ih hfault]

theorem filterMap_fieldEntries (fields : List (String × Value)) :
    (fieldEntries fields).filterMap (fun e => e.1.asText?) = fields.map Prod.fst := by
  rw [fieldEntries, List.filterMap_map]
  exact List.filterMap_eq_map_iff_forall_eq_some.mpr fun _ _ => rfl

/-- Members with names for their keys are told apart by these names. -/
theorem fieldEntries_apart_iff :
    (fieldEntries fields).Pairwise (fun e e' => sameKey e.1 e'.1 = false) ↔
      (fields.map Prod.fst).Nodup := by
  rw [fieldEntries, List.pairwise_map, List.Nodup, List.pairwise_map]
  refine List.Pairwise.iff fun field field' => ?_
  have hname : (text field'.1).asText? = some field'.1 := rfl
  rw [← Bool.not_eq_true, sameKey_iff_asText hname]
  exact not_congr Option.some_inj

theorem object_fault_none_iff :
    (object mark layers slots fields).listing.fault = none ↔
      ∀ name ∈ listedSlots layers, ∀ fault,
        (object mark layers slots fields).attribute? name ≠ .error fault := by
  rw [← readSlots_fault_none_iff]
  refine ⟨fun h => (object_members h).1, fun h => ?_⟩
  rw [listing]
  split
  next hread => rw [hread] at h; cases h
  next => rfl

theorem endsWith_iff {s ending : String} :
    s.endsWith ending = true ↔ ending.toList <:+ s.toList := by
  rw [String.endsWith_eq_endsWith_toSlice, String.Slice.endsWith_string_iff, String.copy_toSlice]

/-- A name that is qualified by a class ends like the private name that it is made of, so it
is not reserved. -/
theorem listedSlotName_of_reserved {className slot : String}
    (h : isReservedName (listedSlotName className slot) = true) :
    listedSlotName className slot = slot := by
  cases hprivate : isPrivateName slot with
  | false => simp [listedSlotName, hprivate]
  | true =>
      have hslot : slot.toList <:+ (listedSlotName className slot).toList := by
        simp [listedSlotName, hprivate]
      rw [isPrivateName, Bool.and_eq_true, Bool.not_eq_true', ← Bool.not_eq_true] at hprivate
      rw [isReservedName, Bool.and_eq_true] at h
      -- the underscores and the private name both end the whole, so the shorter ends the longer
      have hlength := (String.startsWith_string_iff.mp hprivate.1).length_le
      have hends : "__".toList <:+ slot.toList :=
        List.suffix_of_suffix_length_le (endsWith_iff.mp h.2) hslot hlength
      exact absurd (endsWith_iff.mpr hends) hprivate.2

section

variable (htidy : Tidy layers slots fields)
  (hfault : (object mark layers slots fields).listing.fault = none)

include htidy hfault

/-- An instance lists the slots that were read, and then its fields. -/
theorem Tidy.members_eq :
    (object mark layers slots fields).listing.members =
      fieldEntries ((readSlots (object mark layers slots fields).attribute?
        (listedSlots layers)).1 ++ openFields fields) := by
  rw [(object_members hfault).2]
  split
  next => rfl
  next hclosed =>
    rw [htidy.no_room (Bool.not_eq_true _ ▸ hclosed)]
    rfl

theorem Tidy.listedNames_eq :
    (object mark layers slots fields).listedNames =
      (listedSlots layers).filter (object mark layers slots fields).answers ++
        (openFields fields).map Prod.fst := by
  rw [listedNames, htidy.members_eq hfault, filterMap_fieldEntries, List.map_append,
    map_fst_readSlots (object_members hfault).1]

theorem Tidy.count_listedNames (name : String) :
    (object mark layers slots fields).listedNames.count name =
      (if (object mark layers slots fields).answers name then (listedSlots layers).count name
        else 0) + ((openFields fields).map Prod.fst).count name := by
  rw [htidy.listedNames_eq hfault, List.count_append]
  split
  next hanswers => rw [List.count_filter hanswers]
  next hanswers =>
    rw [List.count_eq_zero_of_not_mem]
    exact fun hmem => hanswers (List.of_mem_filter hmem)

end

theorem Tidy.open_count_le (htidy : Tidy layers slots fields) (name : String) :
    ((openFields fields).map Prod.fst).count name ≤ 1 := by
  refine List.nodup_iff_count.mp ?_ name
  rw [List.Nodup, List.pairwise_map]
  exact htidy.fields_apart.filter _

/-- A private slot that is held under its plain name was declared under it. -/
theorem mem_slotNames_of_heldSlots {layer : Layer Value} (h : name ∈ layer.heldSlots)
    (hclass : strippedClassName layer.name = "") : name ∈ layer.slotNames := by
  obtain ⟨slot, hslot, rfl⟩ := List.mem_map.mp h
  simpa [heldSlotName, hclass] using hslot

theorem exists_layer_of_reserved (h : name ∈ listedSlots layers)
    (hname : isReservedName name = true) : ∃ layer ∈ layers, name ∈ layer.slotNames := by
  obtain ⟨names, hnames, hlisted⟩ := List.mem_flatten.mp h
  obtain ⟨layer, hlayer, rfl⟩ := List.mem_map.mp hnames
  obtain ⟨slot, hslot, rfl⟩ := List.mem_map.mp hlisted
  rw [listedSlotName_of_reserved hname]
  exact ⟨layer, hlayer, hslot⟩

/-- The own attributes of an instance as they are listed: how often each name comes, when
no two keys are the same, and what is there in any case. -/
structure ListsOwn (v : Value) (layers : List (Layer Value))
    (slots fields : List (String × Value)) : Prop where
  count : ∀ name, v.listedNames.count name =
    (if v.answers name then (listedSlots layers).count name else 0) +
      ((openFields fields).map Prod.fst).count name
  apart_iff : v.listing.members.Pairwise (fun e e' => sameKey e.1 e'.1 = false) ↔
    ∀ name, v.answers name = true → (listedSlots layers).count name +
      ((openFields fields).map Prod.fst).count name ≤ 1
  slot : ∀ slot ∈ slots, (text slot.1, slot.2) ∈ v.listing.members ∨
    Misnamed layers slot.1 ∧ slot.1 ∉ listedSlots layers
  field : ∀ field ∈ fields, isReservedName field.1 = false →
    (text field.1, field.2) ∈ v.listing.members
  reserved : ∀ name ∈ v.listedNames, isReservedName name = true →
    ∃ layer ∈ layers, name ∈ layer.slotNames

section

variable (htidy : Tidy layers slots fields)
  (hfault : (object mark layers slots fields).listing.fault = none)

include htidy hfault

theorem Tidy.apart_iff :
    (object mark layers slots fields).listing.members.Pairwise
        (fun e e' => sameKey e.1 e'.1 = false) ↔
      ∀ name, (object mark layers slots fields).answers name = true →
        (listedSlots layers).count name + ((openFields fields).map Prod.fst).count name ≤ 1 := by
  have hnames : (object mark layers slots fields).listing.members.Pairwise
      (fun e e' => sameKey e.1 e'.1 = false) ↔
        (object mark layers slots fields).listedNames.Nodup := by
    rw [listedNames, htidy.members_eq hfault, fieldEntries_apart_iff, filterMap_fieldEntries]
  rw [hnames, List.nodup_iff_count]
  refine forall_congr' fun name => ?_
  rw [htidy.count_listedNames hfault]
  have hopen := htidy.open_count_le name
  split
  next hanswers => simp [hanswers]
  next hanswers => simp [hanswers, hopen]

/-- A slot that holds something is listed, unless its class gives it a name under which
nothing is listed. -/
theorem Tidy.slot_listed {slot : String × Value} (hslot : slot ∈ slots) :
    (text slot.1, slot.2) ∈ (object mark layers slots fields).listing.members ∨
      Misnamed layers slot.1 ∧ slot.1 ∉ listedSlots layers := by
  obtain ⟨owner, hmember⟩ := htidy.slot_held slot hslot
  have hattribute : (object mark layers slots fields).attribute? slot.1 = .ok (some slot.2) := by
    rw [attribute?, objectAttribute?, hmember]
    exact congrArg Except.ok (lookup_of_mem htidy.slots_apart hslot)
  have hread := (object_members hfault).1
  by_cases hlisted : slot.1 ∈ listedSlots layers
  · left
    rw [htidy.members_eq hfault, mem_fieldEntries_iff]
    exact ⟨slot, List.mem_append_left _ (mem_readSlots hlisted hattribute hread), rfl⟩
  · right
    obtain ⟨layer, hlayer, hheld⟩ := exists_layer_of_classMember hmember
    -- the class lists the slot under the name that it holds it by, if it qualifies its names
    rcases heldSlots_listed hheld with hown | ⟨hclass, hprivate⟩
    · exact absurd (List.mem_flatten_of_mem (List.mem_map_of_mem hlayer) hown) hlisted
    · exact ⟨⟨layer, hlayer, hclass, hprivate, mem_slotNames_of_heldSlots hheld hclass⟩, hlisted⟩

theorem Tidy.field_listed {field : String × Value} (hfield : field ∈ fields)
    (hname : isReservedName field.1 = false) :
    (text field.1, field.2) ∈ (object mark layers slots fields).listing.members := by
  rw [htidy.members_eq hfault, mem_fieldEntries_iff]
  refine ⟨field, List.mem_append_right _ (List.mem_filter.mpr ⟨hfield, ?_⟩), rfl⟩
  simp [hname]

/-- A reserved name is only listed where a class declares a slot of that very name. -/
theorem Tidy.reserved_listed (h : name ∈ (object mark layers slots fields).listedNames)
    (hname : isReservedName name = true) : ∃ layer ∈ layers, name ∈ layer.slotNames := by
  rw [htidy.listedNames_eq hfault, List.mem_append] at h
  rcases h with hslot | hfield
  · exact exists_layer_of_reserved (List.mem_of_mem_filter hslot) hname
  · obtain ⟨field, hopen, rfl⟩ := List.mem_map.mp hfield
    have hkept := (List.mem_filter.mp hopen).2
    simp [hname] at hkept

end

/-- However its classes declare their slots and whatever was set on it, the listing of an
instance is complete unless the lookup of a slot fails.  It has each declared slot that
answers, as often as that is declared, and each field whose name is not reserved; so no key
comes twice exactly if nothing that answers is declared twice or is a field besides.  A slot
that holds something is missing only if it is a private one of a class whose name is nothing
but underscores, and a reserved name is there only if a class declares a slot of that name. -/
theorem own_attributes_listed (hv : Instance layers (object mark layers slots fields)) :
    ((object mark layers slots fields).listing.fault = none ↔
      ∀ name ∈ listedSlots layers, ∀ fault,
        (object mark layers slots fields).attribute? name ≠ .error fault) ∧
      ((object mark layers slots fields).listing.fault = none →
        ListsOwn (object mark layers slots fields) layers slots fields) := by
  refine ⟨object_fault_none_iff, fun hfault => ?_⟩
  exact {
    count := hv.tidy.count_listedNames hfault
    apart_iff := hv.tidy.apart_iff hfault
    slot := fun _ hslot => hv.tidy.slot_listed hfault hslot
    field := fun _ hfield hname => hv.tidy.field_listed hfault hfield hname
    reserved := fun _ hname hreserved => hv.tidy.reserved_listed hfault hname hreserved }

/-- A class with a slot, one that extends it by a private slot, and one whose instances have
attributes of any name. -/
def labelledLayers : List (Layer Value) :=
  [⟨"Point", .many ["x"], [], none, none, none, false⟩,
    ⟨"_Label", .one "__p", [], none, none, none, false⟩,
    ⟨"Note", .absent, [], none, none, none, false⟩]

/-- The private slot is listed under its qualified name, and the reserved field is not. -/
theorem own_attributes_listed_labelled :
    let slots := [("x", int 1), ("_Label__p", text "p")]
    let fields := [("__f__", null), ("f", int 2)]
    Instance labelledLayers (object 0 labelledLayers slots fields) ∧
      (object 0 labelledLayers slots fields).listing.fault = none ∧
      ListsOwn (object 0 labelledLayers slots fields) labelledLayers slots fields := by
  intro slots fields
  have hmade : Instance labelledLayers (object 0 labelledLayers [] []) :=
    .made (v := object 0 labelledLayers [] []) 0 rfl
  have hx : Instance labelledLayers (object 0 labelledLayers [("x", int 1)] []) :=
    .given "x" (int 1) hmade trivial (by with_unfolding_all rfl)
  have hslots : Instance labelledLayers (object 0 labelledLayers slots []) :=
    .given "_Label__p" (text "p") hx trivial (by with_unfolding_all rfl)
  have hfields : Instance labelledLayers (object 0 labelledLayers slots [("__f__", null)]) :=
    .given "__f__" null hslots trivial (by with_unfolding_all rfl)
  have hv : Instance labelledLayers (object 0 labelledLayers slots fields) :=
    .given "f" (int 2) hfields trivial (by with_unfolding_all rfl)
  have hfault : (object 0 labelledLayers slots fields).listing.fault = none := by
    with_unfolding_all rfl
  exact ⟨hv, hfault, (own_attributes_listed hv).2 hfault⟩

/-- A class with a slot, and one whose name is nothing but underscores, which declares the
slot again, and a private and a reserved one besides. -/
def repeatingLayers : List (Layer Value) :=
  [⟨"A", .many ["a"], [], none, none, none, false⟩,
    ⟨"__", .many ["a", "__p", "__x__"], [], none, none, none, false⟩]

/-- An instance that lists one slot twice, one not at all and one under a reserved name. -/
theorem slot_repeated_and_slot_lost :
    let v := object 0 repeatingLayers [("a", int 1), ("__p", int 2), ("__x__", int 3)] []
    Instance repeatingLayers v ∧ v.attribute? "__p" = .ok (some (int 2)) ∧
      v.listing = ⟨[(text "a", int 1), (text "a", int 1), (text "__x__", int 3)], none⟩ ∧
      ¬ v.listing.members.Pairwise (fun e e' => sameKey e.1 e'.1 = false) ∧
      (∀ e ∈ v.listing.members, e.1.asText? ≠ some "__p") ∧
      ∃ e ∈ v.listing.members, e.1 = text "__x__" ∧ isReservedName "__x__" = true := by
  intro v
  have hmade : Instance repeatingLayers (object 0 repeatingLayers [] []) :=
    .made (v := object 0 repeatingLayers [] []) 0 rfl
  have ha : Instance repeatingLayers (object 0 repeatingLayers [("a", int 1)] []) :=
    .given "a" (int 1) hmade trivial (by with_unfolding_all rfl)
  have hp : Instance repeatingLayers
      (object 0 repeatingLayers [("a", int 1), ("__p", int 2)] []) :=
    .given "__p" (int 2) ha trivial (by with_unfolding_all rfl)
  have hv : Instance repeatingLayers v :=
    .given "__x__" (int 3) hp trivial (by with_unfolding_all rfl)
  have hlisting : v.listing =
      ⟨[(text "a", int 1), (text "a", int 1), (text "__x__", int 3)], none⟩ := by
    with_unfolding_all rfl
  refine ⟨hv, by with_unfolding_all rfl, hlisting, ?_, ?_, ?_⟩
  · rw [hlisting]
    simp [sameKey, identical, text]
  · rw [hlisting]
    simp [text, asText?, Atom.asText?]
  · rw [hlisting]
    exact ⟨(text "__x__", int 3), by simp, rfl, by with_unfolding_all rfl⟩

end ShapeCheck.Value
