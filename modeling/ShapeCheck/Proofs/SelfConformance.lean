import ShapeCheck.Proofs.Containers
import ShapeCheck.Proofs.Literals
import ShapeCheck.Proofs.OptionalOutcomes
import ShapeCheck.Proofs.UndeclaredKeys

/-!
# Data as its own schema

A value that is neither a predicate nor tagged, and made of such values only, is a schema
too: a shape of shapes down to literals.  As such it accepts itself, if its literals do.
For this every item that a value lists has to be found again under the key that it is
listed with, by the test for presence as well as by the lookup.

Both go by attribute, whereas the fields of an instance are listed as they are stored.  A
class may define a slot or a computed attribute under the name of a stored field and so
hide it.  Such an instance holds one thing and answers with another, and need not accept
itself.
-/

namespace ShapeCheck

namespace Value

/-- A value has another among the items that it lists. -/
def Owns (v item : Value) : Prop := ∃ key, (key, item) ∈ v.listing.members

/-- A value is found in another, however many items down. -/
def Contains : Value → Value → Prop := Relation.ReflTransGen Owns

/-- What holds of all that is found in a value holds of the value, and of all that is found
in its items. -/
theorem forall_contains_iff {P : Value → Prop} {v : Value} :
    (∀ u, v.Contains u → P u) ↔
      P v ∧ ∀ e ∈ v.listing.members, ∀ u, e.2.Contains u → P u := by
  constructor
  · intro h
    exact ⟨h v .refl, fun e he u hu => h u (.head ⟨e.1, he⟩ hu)⟩
  · rintro ⟨hv, hitems⟩ u hu
    rcases hu.cases_head with rfl | ⟨item, ⟨key, hitem⟩, hrest⟩
    · exact hv
    · exact hitems _ hitem u hrest

/-- A class of a hierarchy answers for a name in place of the fields of its instances. -/
inductive Hides (layers : List (Layer Value)) (name : String) : Prop
  | slot {owner : String} (hname : classMember? layers name = some (.slot owner))
  | computed {result : Value} (hname : classMember? layers name = some (.attr (computed result)))
  | failing {kind : String} (hname : classMember? layers name = some (.attr (failing kind)))

/-- No listed field of a value is hidden by a class. -/
def Unhidden : Value → Prop
  | object _ layers _ fields => ∀ field ∈ openFields fields, ¬ Hides layers field.1
  | _ => True

/-- No two entries of a mapping are stored under the same key, and no two fields under the
same name.  The keys of a mapping can be keys, and each is the same as itself. -/
def Distinct : Value → Prop
  | mapping _ _ entries =>
    (∀ e ∈ entries, e.1.isHashable = true ∧ sameKey e.1 e.1 = true) ∧
      entries.Pairwise fun e e' => sameKey e.1 e'.1 = false
  | record _ fields | object _ _ _ fields => fields.Pairwise fun field field' => field.1 ≠ field'.1
  | _ => True

/-- A value that is data: neither a predicate nor a tagged schema, with items that can be
listed. -/
structure Datum (v : Value) : Prop where
  not_callable : v.isCallable = false
  not_tagged : v.isTagged = false
  listed : v.listing.fault = none
  distinct : v.Distinct

theorem Datum.demand_eq {v : Value} (hv : v.Datum) (hprimitive : v.isPrimitive = false) :
    v.demand = .shape :=
  demand_eq_shape_iff.mpr ⟨hv.not_tagged, hprimitive, hv.not_callable⟩

/-! ## Items are found where they are listed -/

theorem lookup_of_mem {fields : List (String × Value)} {name : String} {v : Value}
    (hdistinct : fields.Pairwise fun field field' => field.1 ≠ field'.1)
    (hmem : (name, v) ∈ fields) : fields.lookup name = some v := by
  obtain ⟨before, after, rfl⟩ := List.append_of_mem hmem
  have hbefore : ∀ field ∈ before, name ≠ field.1 := by
    intro field hfield
    have hapart := (List.pairwise_append.mp hdistinct).2.2 field hfield (name, v) (by simp)
    exact hapart.symm
  exact List.lookup_eq_some_iff.mpr ⟨before, after, rfl, by simpa using hbefore⟩

theorem entryAt_of_mem {entries : List (Value × Value)} {e : Value × Value}
    (hself : sameKey e.1 e.1 = true)
    (hapart : entries.Pairwise fun e e' => sameKey e.1 e'.1 = false) (he : e ∈ entries) :
    entryAt? entries e.1 = some e := by
  obtain ⟨before, after, rfl⟩ := List.append_of_mem he
  have hbefore : ∀ earlier ∈ before, sameKey earlier.1 e.1 = false := by
    intro earlier hearlier
    exact (List.pairwise_append.mp hapart).2.2 earlier hearlier e (by simp)
  rw [entryAt?, List.find?_eq_some_iff_append]
  exact ⟨hself, before, after, rfl, by simpa using hbefore⟩

theorem readSlots_mem {read : String → Except Fault (Option Value)} {names : List String}
    {name : String} {v : Value} (hmem : (name, v) ∈ (readSlots read names).1) :
    read name = .ok (some v) := by
  induction names with
  | nil => cases hmem
  | cons head tail ih =>
      rw [readSlots] at hmem
      rcases hhead : read head with fault | _ | u
      · simp [hhead] at hmem
      · simp only [hhead] at hmem
        exact ih hmem
      · simp only [hhead] at hmem
        rcases List.mem_cons.mp hmem with hfirst | htail
        · obtain ⟨rfl, rfl⟩ := Prod.mk.inj hfirst
          exact hhead
        · exact ih htail

section

variable {mark : Nat} {layers : List (Layer Value)} {slots fields : List (String × Value)}
  {name : String} {v : Value} {e : Value × Value}

/-- An instance answers with the field that it has under a name, unless a class hides it. -/
theorem objectAttribute_of_field (hfield : fields.lookup name = some v)
    (hexposed : ¬ Hides layers name) :
    objectAttribute? mark layers slots fields name = .ok (some v) := by
  unfold objectAttribute?
  split
  next hmember => exact absurd (.slot hmember) hexposed
  next hmember => exact absurd (.computed hmember) hexposed
  next hmember => exact absurd (.failing hmember) hexposed
  next => rw [hfield, Option.getD_some]
  next => rw [hfield, Option.some_or]

theorem mem_fieldEntries_iff :
    e ∈ fieldEntries fields ↔ ∃ field ∈ fields, e = (text field.1, field.2) := by
  simp [fieldEntries, eq_comm]

/-- What an instance lists is a slot that was read or a field. -/
theorem exists_slot_or_field (he : e ∈ (object mark layers slots fields).listing.members) :
    ∃ field, e = (text field.1, field.2) ∧
      (field ∈ (readSlots (object mark layers slots fields).attribute? (listedSlots layers)).1 ∨
        field ∈ openFields fields) := by
  simp only [listing] at he
  split at he
  next hread =>
    obtain ⟨field, hslot, rfl⟩ := mem_fieldEntries_iff.mp he
    exact ⟨field, rfl, .inl (hread ▸ hslot)⟩
  next hread =>
    obtain ⟨field, hfield, rfl⟩ := mem_fieldEntries_iff.mp he
    refine ⟨field, rfl, (List.mem_append.mp hfield).imp (fun hslot => hread ▸ hslot) ?_⟩
    intro hopen
    split at hopen
    next => exact hopen
    next => cases hopen

/-- An instance holds what it lists, unless that is a field that a class hides. -/
theorem object_holds_or_hides
    (hfields : fields.Pairwise fun field field' => field.1 ≠ field'.1)
    (he : e ∈ (object mark layers slots fields).listing.members) :
    (object mark layers slots fields).Holds e.1 e.2 ∨
      ∃ field ∈ openFields fields, e = (text field.1, field.2) ∧ Hides layers field.1 := by
  have hattributes : (object mark layers slots fields).HasAttributes := ⟨rfl, rfl⟩
  obtain ⟨field, rfl, hslot | hopen⟩ := exists_slot_or_field he
  · exact .inl (hattributes.holds_iff.mpr ⟨field.1, rfl, readSlots_mem hslot⟩)
  · by_cases hhides : Hides layers field.1
    · exact .inr ⟨field, hopen, rfl, hhides⟩
    · have hfound : fields.lookup field.1 = some field.2 :=
        lookup_of_mem hfields (List.mem_filter.mp hopen).1
      exact .inl (hattributes.holds_iff.mpr
        ⟨field.1, rfl, objectAttribute_of_field hfound hhides⟩)

theorem object_holds_of_member (hv : (object mark layers slots fields).Datum)
    (hunhidden : (object mark layers slots fields).Unhidden)
    (he : e ∈ (object mark layers slots fields).listing.members) :
    (object mark layers slots fields).Holds e.1 e.2 := by
  rcases object_holds_or_hides hv.distinct he with hholds | ⟨field, hfield, rfl, hhides⟩
  · exact hholds
  · exact absurd hhides (hunhidden field hfield)

theorem record_holds_of_member (hv : (record mark fields).Distinct)
    (he : e ∈ (record mark fields).listing.members) : (record mark fields).Holds e.1 e.2 := by
  have hattributes : (record mark fields).HasAttributes := ⟨rfl, rfl⟩
  obtain ⟨field, hfield, rfl⟩ := mem_fieldEntries_iff.mp he
  refine hattributes.holds_iff.mpr ⟨field.1, rfl, ?_⟩
  have hfound : fields.lookup field.1 = some field.2 :=
    lookup_of_mem hv (List.mem_filter.mp hfield).1
  simp [attribute?, kindAttribute?, hfound]

theorem mapping_holds_of_member {kind : MappingKind} {entries : List (Value × Value)}
    (hv : (mapping mark kind entries).Distinct) (he : e ∈ entries) :
    (mapping mark kind entries).Holds e.1 e.2 := by
  obtain ⟨hhashable, hself⟩ := hv.1 e he
  have hentry := entryAt_of_mem hself hv.2 he
  have hdeclared : declares entries e.1 = true := by
    rw [← entryAt?_isSome, hentry]
    rfl
  exact ⟨by simp [hasKey, hhashable, hdeclared], by simp [get, hhashable, hentry]⟩

/-- A value holds each item that it lists, under the key that it lists it with. -/
theorem Datum.holds_of_member (hv : v.Datum) (hunhidden : v.Unhidden)
    (he : e ∈ v.listing.members) : v.Holds e.1 e.2 := by
  cases v with
  | mapping => exact mapping_holds_of_member hv.distinct he
  | sequence =>
      obtain ⟨i, hkey, hitem⟩ := mem_positions_iff.mp he
      refine holds_sequence_iff.mpr ⟨i, ?_, hitem⟩
      rw [hkey, Nat.zero_add]
      rfl
  | record => exact record_holds_of_member hv.distinct he
  | object => exact object_holds_of_member hv hunhidden he
  | classObject | function | method | applied | native | guard =>
      exact absurd hv.not_callable Bool.true_eq_false.mp
  | _ => cases he

end

end Value

namespace Check

open Run Value

variable {σ : Type} {host : Host σ} {W : World σ → Prop} {v : Value} {w : World σ}

/-- A shape accepts what holds each of its items and lists nothing that it does not accept
in its place. -/
theorem shape_accepts_itself (hw : W w) (hv : v.Datum) (hprimitive : v.isPrimitive = false)
    (hholds : ∀ e ∈ v.listing.members, v.Holds e.1 e.2)
    (hitems : ∀ e ∈ v.listing.members, Accepts host W e.2 e.2) : Accepts host W v v := by
  have hpresent : ∀ e ∈ v.listing.members, Settles W (present v e) (.ok none) := by
    intro e he w₁ hw₁
    exact ⟨w₁, hw₁, present_eq_pass_iff.mpr ⟨fun _ => (hholds e he).1, rfl⟩⟩
  have hmember : ∀ e ∈ v.listing.members, Settles W (member (check host) v true e) (.ok none) := by
    intro e he w₁ hw₁
    obtain ⟨w₂, hw₂, hitem⟩ := hitems e he w₁ hw₁
    exact ⟨w₂, hw₂, member_eq_pass_iff.mpr (.inl ⟨e.2, .inl (hholds e he), hitem⟩)⟩
  have hpass {test : Value × Value → Run σ Outcome}
      (htests : ∀ e ∈ v.listing.members, Settles W (test e) (.ok none)) :
      Settles W (eachMember v.listing test) (.ok none) := by
    refine (settles_eachMember_iff hw fun e he => ⟨_, htests e he⟩).mpr (.inr ⟨htests, ?_⟩)
    rw [hv.listed]
    rfl
  rw [Accepts, check_of_shape (hv.demand_eq hprimitive) hprimitive]
  exact (hpass hpresent).bind_ok (hpass hmember)

/-- Data accepts itself and asks no predicate, if each of the primitive values that are
found in it does and no class hides a field. -/
theorem data_accepts_itself (host : Host σ) (w : World σ) (v : Value)
    (hdata : ∀ u, v.Contains u → u.Datum) (hunhidden : ∀ u, v.Contains u → u.Unhidden)
    (hprimitives : ∀ u, v.Contains u → u.isPrimitive = true →
      ((check host u u).startedIn w).1 = .ok none) :
    (check host v v).startedIn w = (.ok none, w) := by
  have haccepts : Accepts host (· = w) v v := by
    induction hdescent : v.descent using Nat.strongRecOn generalizing v with
    | _ n ih =>
        rw [forall_contains_iff] at hdata hunhidden hprimitives
        cases hprimitive : v.isPrimitive with
        | true =>
            cases v with
            | atom mark a =>
                rintro w₁ rfl
                have haccepted := hprimitives.1 hprimitive
                rw [check_literal_startedIn] at haccepted ⊢
                exact ⟨w₁, rfl, Prod.ext haccepted rfl⟩
            | _ => cases hprimitive
        | false =>
            have hholds : ∀ e ∈ v.listing.members, v.Holds e.1 e.2 :=
              fun e he => hdata.1.holds_of_member hunhidden.1 he
            apply shape_accepts_itself (W := (· = w)) rfl hdata.1 hprimitive hholds
            intro e he
            have hless : e.2.descent < n :=
              hdescent ▸ (hholds e he).descent_lt (hdata.1.demand_eq hprimitive)
            exact ih e.2.descent hless e.2 (hdata.2 e he) (hunhidden.2 e he)
              (hprimitives.2 e he) rfl
  obtain ⟨_, rfl, hrun⟩ := haccepts w rfl
  exact hrun

/-- A mapping with a list of a truth value under the wildcard accepts itself. -/
theorem data_accepts_itself_wildcard :
    let v : Value := .dict [(.wildcard, .list [.bool true])]
    (∀ u, v.Contains u → u.Datum) ∧ (∀ u, v.Contains u → u.Unhidden) ∧
      (∀ u, v.Contains u → u.isPrimitive = true →
        ((check agreeable u u).startedIn calm).1 = .ok none) ∧
      (check agreeable v v).startedIn calm = (.ok none, calm) := by
  intro v
  have hfound {P : Value → Prop} (hmapping : P v) (hlist : P (.list [.bool true]))
      (hbool : P (.bool true)) : ∀ u, v.Contains u → P u := by
    refine forall_contains_iff.mpr ⟨hmapping, List.forall_mem_singleton.mpr ?_⟩
    refine forall_contains_iff.mpr ⟨hlist, List.forall_mem_singleton.mpr ?_⟩
    exact forall_contains_iff.mpr ⟨hbool, nofun⟩
  have hdata : ∀ u, v.Contains u → u.Datum := by
    apply hfound
    · exact ⟨rfl, rfl, rfl, List.forall_mem_singleton.mpr ⟨rfl, rfl⟩, List.pairwise_singleton ..⟩
    · exact ⟨rfl, rfl, rfl, trivial⟩
    · exact ⟨rfl, rfl, rfl, trivial⟩
  have hunhidden : ∀ u, v.Contains u → u.Unhidden := hfound trivial trivial trivial
  have hprimitives : ∀ u, v.Contains u → u.isPrimitive = true →
      ((check agreeable u u).startedIn calm).1 = .ok none := hfound nofun nofun fun _ => rfl
  exact ⟨hdata, hunhidden, hprimitives,
    data_accepts_itself agreeable calm v hdata hunhidden hprimitives⟩

/-- An instance that stores an integer under the name of a computed attribute. -/
def hidingInstance : Value :=
  .object 1 [⟨"C", .absent, [("x", .computed (.int 1))], none, none, none, false⟩] []
    [("x", .int 2)]

/-- An instance whose class hides what it stores is data, and its items accept themselves,
but it does not: it answers with one integer and lists another. -/
theorem hiding_instance_rejects_itself :
    (∀ u, hidingInstance.Contains u → u.Datum) ∧
      (∀ u, hidingInstance.Contains u → u.isPrimitive = true →
        ((check agreeable u u).startedIn calm).1 = .ok none) ∧
      (check agreeable hidingInstance hidingInstance).startedIn calm =
        (.ok (some (.objectError (.incorrectValue (.int 1) (.int 2)) (.text "x"))), calm) := by
  have hfound {P : Value → Prop} (hinstance : P hidingInstance) (hint : P (.int 2)) :
      ∀ u, hidingInstance.Contains u → P u := by
    refine forall_contains_iff.mpr ⟨hinstance, List.forall_mem_singleton.mpr ?_⟩
    exact forall_contains_iff.mpr ⟨hint, nofun⟩
  refine ⟨hfound ?_ ⟨rfl, rfl, rfl, trivial⟩, hfound nofun fun _ => rfl, rfl⟩
  exact ⟨rfl, rfl, rfl, List.pairwise_singleton ..⟩

end Check

end ShapeCheck
