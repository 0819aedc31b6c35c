import ShapeCheck.Proofs.OwnAttributes

/-!
# Listing, presence and lookup

Each value that has members is looked at in three ways, which go by the kind of the value
one by one: the listing of its members, the test for a key and the lookup of a key.  They
agree: what is listed is present and is found under its key, and in a mapping or a sequence
whatever is present is listed.  Only an instance may list a field that a class hides, for
presence and lookup ask the class first, and a class may list a decorated attribute, which it
hands out without the decoration.

Passes over keys look up what they found to be present, and nothing else.  So no lookup in
them fails, and none makes a mapping with defaults store one.
-/

namespace ShapeCheck

namespace Value

variable {mark : Nat} {layers : List (Layer Value)} {fields : List (String × Value)}
  {c key item : Value} {name : String} {e : Value × Value}

/-- No two members of a value are stored under the same key or name. -/
def StoredApart : Value → Prop
  | classObject _ layers => ∀ layer ∈ layers.getLast?,
    (layer.attrs.Pairwise fun attr attr' => attr.1 ≠ attr'.1) ∧
      ∀ name ∈ layer.heldSlots, layer.attrs.lookup name = none
  | function _ _ attrs _ => attrs.Pairwise fun attr attr' => attr.1 ≠ attr'.1
  | v => v.Distinct

/-- A member that a value lists, and answers for with something else. -/
inductive HiddenField : Value → Value × Value → Prop
  /-- A field of an instance for whose name a class answers. -/
  | field {mark : Nat} {layers : List (Layer Value)} {slots fields : List (String × Value)}
      {field : String × Value} (hfield : field ∈ openFields fields)
      (hhides : Hides layers field.1) :
      HiddenField (object mark layers slots fields) (text field.1, field.2)
  /-- A decorated attribute of a class, which is present without its decoration. -/
  | decorated {mark : Nat} {layers : List (Layer Value)} {name : String} {bindsClass : Bool}
      {inner : Value} (hlisted : (name, decorated bindsClass inner) ∈ classFields layers)
      (hholds : (classObject mark layers).Holds (text name)
        (handedOut (classObject mark layers) (decorated bindsClass inner))) :
      HiddenField (classObject mark layers) (text name, decorated bindsClass inner)

/-! ## What is listed is found -/

theorem classMember_of_last {layer : Layer Value} {member : ClassMember}
    (hlast : layers.getLast? = some layer) (hmember : ownMember? layer name = some member) :
    classMember? layers name = some member := by
  obtain ⟨bases, rfl⟩ := List.getLast?_eq_some_iff.mp hlast
  rw [classMember?, List.reverse_append, List.reverse_singleton, List.singleton_append,
    List.findSome?_cons, hmember]

/-- A class holds what it hands out of an attribute that is found in it. -/
theorem class_holds_handedOut {attr : Value} (h : classMember? layers name = some (.attr attr)) :
    (classObject mark layers).Holds (text name) (handedOut (classObject mark layers) attr) := by
  have hattributes : (classObject mark layers).HasAttributes := ⟨rfl, rfl⟩
  exact hattributes.holds_iff.mpr ⟨name, rfl, by simp [attribute?, classAttribute?, h]⟩

theorem class_holds_of_member (hc : (classObject mark layers).StoredApart)
    (he : e ∈ (classObject mark layers).listing.members) :
    (classObject mark layers).Holds e.1 e.2 ∨ (classObject mark layers).HiddenField e := by
  have hattributes : (classObject mark layers).HasAttributes := ⟨rfl, rfl⟩
  obtain ⟨⟨name, item⟩, hlisted, rfl⟩ := mem_fieldEntries_iff.mp he
  have hfield := hlisted
  unfold classFields at hfield
  split at hfield
  next => cases hfield
  next layer hlast =>
    obtain ⟨hapart, hnone⟩ := hc layer hlast
    -- only the most derived class lists its members, and lookups ask it before the others
    rcases List.mem_append.mp (List.mem_filter.mp hfield).1 with hattr | hslot
    · have hfound : layer.attrs.lookup name = some item := lookup_of_mem hapart hattr
      have hheld : name ∉ layer.heldSlots := by
        intro hheld
        rw [hnone name hheld] at hfound
        cases hfound
      have hmember : ownMember? layer name = some (.attr item) := by
        simp [ownMember?, hheld, hfound]
      have hholds : (classObject mark layers).Holds (text name) _ :=
        class_holds_handedOut (classMember_of_last hlast hmember)
      cases item with
      | decorated => exact .inr (.decorated hlisted hholds)
      | _ => exact .inl hholds
    · obtain ⟨slot, hname, hslot⟩ := List.mem_map.mp hslot
      obtain ⟨rfl, rfl⟩ := Prod.mk.inj hslot
      have hheld : slot ∈ layer.heldSlots := by simpa using hname
      have hmember : ownMember? layer slot = some (.slot layer.name) := by
        simp [ownMember?, hheld]
      refine .inl (hattributes.holds_iff.mpr ⟨slot, rfl, ?_⟩)
      simp [attribute?, classAttribute?, classMember_of_last hlast hmember]

theorem function_holds_of_member {label : Option String} {schema : Option Value}
    (hc : (function mark label fields schema).StoredApart)
    (he : e ∈ (function mark label fields schema).listing.members) :
    (function mark label fields schema).Holds e.1 e.2 := by
  have hattributes : (function mark label fields schema).HasAttributes := ⟨rfl, rfl⟩
  cases label with
  | none => cases he
  | some label =>
      obtain ⟨field, hfield, rfl⟩ := mem_fieldEntries_iff.mp he
      have hfound : fields.lookup field.1 = some field.2 :=
        lookup_of_mem hc (List.mem_filter.mp hfield).1
      refine hattributes.holds_iff.mpr ⟨field.1, rfl, ?_⟩
      simp [attribute?, kindAttribute?, hfound]

theorem guard_holds_of_member {schema : Value}
    (he : e ∈ (guard mark name schema).listing.members) :
    (guard mark name schema).Holds e.1 e.2 := by
  have hattributes : (guard mark name schema).HasAttributes := ⟨rfl, rfl⟩
  rcases List.mem_pair.mp he with rfl | rfl
  · exact hattributes.holds_iff.mpr ⟨"descriptor", rfl, rfl⟩
  · exact hattributes.holds_iff.mpr ⟨"name", rfl, rfl⟩

/-- A value holds what it lists, unless a class answers for it with something else. -/
theorem StoredApart.holds_or_hidden (hc : c.StoredApart) (he : e ∈ c.listing.members) :
    c.Holds e.1 e.2 ∨ c.HiddenField e := by
  cases c with
  | mapping => exact .inl (mapping_holds_of_member hc he)
  | sequence =>
      obtain ⟨i, hkey, hitem⟩ := mem_positions_iff.mp he
      refine .inl (holds_sequence_iff.mpr ⟨i, ?_, hitem⟩)
      rw [hkey, Nat.zero_add]
      rfl
  | record => exact .inl (record_holds_of_member hc he)
  | object =>
      refine (object_holds_or_hides hc he).imp id ?_
      rintro ⟨field, hfield, rfl, hhides⟩
      exact .field hfield hhides
  | classObject => exact class_holds_of_member hc he
  | function => exact .inl (function_holds_of_member hc he)
  | guard => exact .inl (guard_holds_of_member he)
  | _ => cases he

/-- An instance stores its fields apart, whatever was set on it. -/
theorem Instance.storedApart (hc : Instance layers c) : c.StoredApart := by
  obtain ⟨mark, slots, fields, rfl, htidy⟩ := hc.exists_tidy
  exact htidy.fields_apart

/-- A class is not defined if a slot of it has the name of one of its attributes. -/
theorem lookup_of_checkLayer {inherited : List (Layer Value)} {layer : Layer Value}
    (h : checkLayer inherited layer = .ok ()) (hname : name ∈ layer.heldSlots) :
    layer.attrs.lookup name = none := by
  by_contra hfound
  have hclashes : (layer.heldSlots.find? fun name => (layer.attrs.lookup name).isSome).isSome :=
    List.find?_isSome.mpr ⟨name, hname, Option.isSome_iff_ne_none.mpr hfound⟩
  obtain ⟨clash, hclash⟩ := Option.isSome_iff_exists.mp hclashes
  simp only [checkLayer, hclash] at h
  split_ifs at h <;> cases h

theorem checkLayer_of_checkLayers {inherited : List (Layer Value)} {layer : Layer Value}
    (h : checkLayers inherited layers = .ok ()) (hlayer : layer ∈ layers) :
    ∃ inherited, checkLayer inherited layer = .ok () := by
  induction layers generalizing inherited with
  | nil => cases hlayer
  | cons head tail ih =>
      obtain ⟨_, hhead, htail⟩ := bind_ok_iff.mp h
      rcases List.mem_cons.mp hlayer with rfl | hlayer
      · exact ⟨inherited, hhead⟩
      · exact ih htail hlayer

/-- A class that was defined stores its members apart, if each name is given to one of its
attributes only. -/
theorem storedApart_of_defineClass
    (hattrs : ∀ layer ∈ layers, layer.attrs.Pairwise fun attr attr' => attr.1 ≠ attr'.1)
    (h : defineClass layers = .ok c) : c.StoredApart := by
  obtain ⟨_, hlayers, hclass⟩ := bind_ok_iff.mp h
  obtain rfl := Except.ok.inj hclass
  intro layer hlast
  have hlayer : layer ∈ layers := List.mem_of_getLast? hlast
  obtain ⟨inherited, hchecked⟩ := checkLayer_of_checkLayers hlayers hlayer
  exact ⟨hattrs layer hlayer, fun name hname => lookup_of_checkLayer hchecked hname⟩

theorem listing_fault_none (hc : ∀ name fault, c.attribute? name ≠ .error fault) :
    c.listing.fault = none := by
  rw [Option.eq_none_iff_forall_ne_some]
  intro fault hfault
  obtain ⟨mark, layers, slots, fields, rfl, name, -, hfails⟩ := listing_fault hfault
  exact hc name fault hfails

/-! ## What a lookup leaves behind -/

/-- The item that a lookup finds, and what the lookup leaves of the container: a mapping with
defaults stores the default that it answers an absent key with. -/
def fetch (container key : Value) : Except Fault (Value × Value) := do
  let item ← container.get key
  match container with
  | mapping mark .defaulting entries =>
    if declares entries key then return (item, container)
    else return (item, mapping mark .defaulting (insertEntry entries key item))
  | _ => return (item, container)

/-- The lookup of a present key finds something, and leaves the container as it is. -/
theorem fetch_of_holds (h : c.Holds key item) : c.fetch key = .ok (item, c) := by
  rw [fetch, h.2]
  cases c with
  | mapping mark kind entries =>
      cases kind with
      | defaulting =>
          have hdeclared : declares entries key = true := by
            have hkey := h.1
            rw [hasKey] at hkey
            split at hkey
            next => exact Except.ok.inj hkey
            next => cases hkey
          simp [hdeclared, bind, Except.bind, pure, Except.pure]
      | _ => rfl
  | _ => rfl

end Value

namespace Check

open Run Value

variable {σ : Type} {rec : Value → Value → Run σ Outcome} {shape : Value} {strict : Bool}
  {look : Value → Value → Except Fault (Value × Value)}

theorem lift_ok {α : Type} (a : α) : (lift (.ok a) : Run σ α) = pure a := rfl

/-- The test of a member against a shape by lookups that may change the shape, with what
they leave of it. -/
def memberLeaving (look : Value → Value → Except Fault (Value × Value))
    (rec : Value → Value → Run σ Outcome) (strict : Bool) (shape : Value)
    (entry : Value × Value) : Run σ (Outcome × Value) := do
  let (key, item) := entry
  if ← lift (shape.hasKey key) then
    let (schema, left) ← lift (look shape key)
    return ((← rec schema item).map (.objectError · key), left)
  else if ← lift (shape.hasKey .wildcard) then
    let (schema, left) ← lift (look shape .wildcard)
    match ← rec schema item with
    | none => return (none, left)
    | some problem => return (some (.objectError problem (← lift (coveredKey key))), left)
  else if strict then return (some (.illegalExtraKey key), shape)
  else return (none, shape)

/-- The tests of members in order up to the first mismatch, each against what the lookups
before it left of the shape. -/
def membersLeaving (look : Value → Value → Except Fault (Value × Value))
    (rec : Value → Value → Run σ Outcome) (strict : Bool) (shape : Value) :
    List (Value × Value) → Run σ (Outcome × Value)
  | [] => pure (none, shape)
  | entry :: rest => do
    let (outcome, left) ← memberLeaving look rec strict shape entry
    match outcome with
    | some problem => return (some problem, left)
    | none => membersLeaving look rec strict left rest

section

variable (hlook : ∀ key item, shape.Holds key item → look shape key = .ok (item, shape))

include hlook

/-- The test of a member looks nothing up but keys that are present. -/
theorem memberLeaving_eq (entry : Value × Value) :
    memberLeaving look rec strict shape entry =
      member rec shape strict entry >>= fun outcome => pure (outcome, shape) := by
  obtain ⟨key, item⟩ := entry
  rcases shape.key_cases key with ⟨schema, hkey⟩ | ⟨schema, hkey⟩ | hkey | ⟨fault, hkey⟩
  · simp only [memberLeaving, member_of_holds hkey, hkey.1, hlook key schema hkey, bind_assoc]
    rfl
  · simp only [memberLeaving, member_of_covers hkey, hkey.1, hkey.2.1,
      hlook .wildcard schema hkey.2, lift_ok, pure_bind, bind_assoc, Bool.false_eq_true, if_false,
      if_true]
    refine bind_congr fun outcome => ?_
    cases outcome with
    | none => rfl
    | some problem => simp only [bind_assoc, pure_bind]
  · simp only [memberLeaving, member_of_leaves hkey, hkey.1, hkey.2]
    cases strict <;> rfl
  · simp only [memberLeaving, member_of_error hkey, hkey]
    rfl

/-- A pass looks nothing up but keys that are present, so it goes on as if lookups changed
nothing, and leaves the shape as it was. -/
theorem membersLeaving_eq (entries : List (Value × Value)) :
    membersLeaving look rec strict shape entries =
      firstMismatch (member rec shape strict) entries >>= fun outcome => pure (outcome, shape) := by
  induction entries with
  | nil => rfl
  | cons entry rest ih =>
      -- the rest is checked against what is left of the shape, which is the shape again
      rw [membersLeaving, memberLeaving_eq hlook, firstMismatch]
      simp only [bind_assoc, pure_bind]
      refine bind_congr fun outcome => ?_
      cases outcome with
      | none => exact ih
      | some problem => rfl

end

-- A class lists a decorated attribute as it is, and hands it out without the decoration.
example :
    let p : Value := .function 2 (some "p") [] none
    let c : Value :=
      .classObject 0 [⟨"C", .absent, [("f", .decorated false p)], none, none, none, false⟩]
    c.listing.members = [(.text "f", .decorated false p)] ∧ c.get (.text "f") = .ok p :=
  ⟨by with_unfolding_all rfl, by with_unfolding_all rfl⟩

/-- A class with one slot, whose instances have attributes of any name besides. -/
def slotAndFieldsLayers : List (Layer Value) :=
  [⟨"C", .many ["x", "__dict__"], [], none, none, none, false⟩]

end Check

end ShapeCheck
