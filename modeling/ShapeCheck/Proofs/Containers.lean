import ShapeCheck.Proofs.Sameness
import ShapeCheck.Proofs.Unfolding

/-!
# Containers and their keys

Mappings and sequences hold exactly what they list.  A key that is present is the same as
one of their own keys, no two own keys are the same, and under an own key they hold the
item that they list there.
-/

namespace ShapeCheck

namespace Atom

/-- Atoms that are integers are compared by the integer. -/
theorem face_of_asInt {a : Atom} {i : Int} (h : a.asInt? = some i) :
    a.face? = some (.point (.rational i, .rational 0)) := by
  cases htext : a.asText? with
  | some s => simp [asInt?, asNumber_of_asText htext] at h
  | none =>
      unfold asInt? at h
      split at h
      next j derived hnumber =>
        obtain rfl := Option.some.inj h
        simp [face?, htext, hnumber, Number.parts]
      next => cases h

end Atom

namespace Value

variable {K : Value → Prop} {v key held : Value} {e e' : Value × Value}

/-- Mappings and sequences. -/
inductive Container : Value → Prop
  | mapping {mark : Nat} {kind : MappingKind} {entries : List (Value × Value)} :
      Container (mapping mark kind entries)
  | sequence {mark : Nat} {kind : SequenceKind} {items : List Value} :
      Container (sequence mark kind items)

/-- What a mapping has its entries under are keys, no two of them the same. -/
def WellKeyed (K : Value → Prop) : Value → Prop
  | mapping _ _ entries =>
    (∀ e ∈ entries, IsKey K e.1) ∧ entries.Pairwise fun e e' => sameKey e.1 e'.1 = false
  | _ => True

theorem sameKey_int_iff {i j : Int} : sameKey (int i) (int j) = true ↔ i = j := by
  rw [sameKey_iff_same, Same, orIdentical]
  by_cases h : i = j
  · simp [h, int, identical]
  · simp [h, int, identical, equal, Atom.equal, Atom.asText?, Atom.asNumber?, Number.equal,
      Number.extent?, Number.isSignaling]

/-- The position that a key stands for is the same key. -/
theorem sameKey_of_position {i : Int} (h : key.position? = some i) :
    sameKey (int i) key = true := by
  cases key with
  | atom m a =>
      have hface := Atom.face_of_asInt (asInt_of_position h)
      have hequal : (Atom.number (.int i false)).equal a = .ok true :=
        Atom.equal_eq_true_iff.mpr ⟨_, Atom.face_of_asInt rfl, hface⟩
      simp [sameKey, int, equal, hequal]
  | _ => cases h

theorem mem_positions_iff {start : Nat} {items : List Value} :
    e ∈ positions start items ↔ ∃ i : Nat, e.1 = int (start + i : Nat) ∧ items[i]? = some e.2 := by
  induction items generalizing start with
  | nil => simp [positions]
  | cons head tail ih =>
      rw [positions, List.mem_cons, ih]
      constructor
      · rintro (rfl | ⟨i, hkey, hitem⟩)
        · exact ⟨0, rfl, rfl⟩
        · exact ⟨i + 1, by rw [hkey, Nat.add_right_comm, Nat.add_assoc], hitem⟩
      · rintro ⟨_ | i, hkey, hitem⟩
        · exact .inl (Prod.ext hkey (Option.some.inj hitem).symm)
        · exact .inr ⟨i, by rw [hkey, Nat.add_right_comm, Nat.add_assoc], hitem⟩

theorem positions_pairwise (start : Nat) (items : List Value) :
    (positions start items).Pairwise fun e e' => sameKey e.1 e'.1 = false := by
  induction items generalizing start with
  | nil => exact .nil
  | cons head tail ih =>
      refine .cons ?_ (ih (start + 1))
      intro e he
      obtain ⟨i, hkey, -⟩ := mem_positions_iff.mp he
      rw [hkey, Bool.eq_false_iff, Ne, sameKey_int_iff]
      omega

theorem eq_of_pairwise_apart {α : Type} {same : α → α → Bool} {items : List α} {a b : α}
    (hapart : items.Pairwise fun x y => same x y = false) (ha : a ∈ items) (hb : b ∈ items)
    (hab : same a b = true) (hba : same b a = true) : a = b := by
  induction hapart with
  | nil => cases ha
  | cons hhead _ ih =>
      rcases List.mem_cons.mp ha with rfl | htail
      · rcases List.mem_cons.mp hb with rfl | htail'
        · rfl
        · exact absurd hab (by simp [hhead b htail'])
      · rcases List.mem_cons.mp hb with rfl | htail'
        · exact absurd hba (by simp [hhead a htail])
        · exact ih htail htail'

/-- Values that are looked into by attribute name list their members under texts. -/
theorem HasAttributes.exists_text {v : Value} (hv : v.HasAttributes)
    (he : e ∈ v.listing.members) : ∃ name, e.1 = text name := by
  have hfields {fields : List (String × Value)} (he : e ∈ fieldEntries fields) :
      ∃ name, e.1 = text name := by
    obtain ⟨field, -, rfl⟩ := List.mem_map.mp he
    exact ⟨field.1, rfl⟩
  cases v with
  | mapping => exact absurd hv.1 Bool.true_eq_false.mp
  | sequence => exact absurd hv.2 Bool.true_eq_false.mp
  | object =>
      simp only [listing] at he
      split at he <;> exact hfields he
  | classObject | record => exact hfields he
  | function m name =>
      cases name with
      | none => cases he
      | some => exact hfields he
  | guard m name schema =>
      rcases List.mem_pair.mp he with rfl | rfl
      · exact ⟨_, rfl⟩
      · exact ⟨_, rfl⟩
  | _ => cases he

section

variable (hK : Coherent K) (hkeys : v.WellKeyed K)

include hK hkeys

/-- What a value lists its members under are keys. -/
theorem isKey_of_member (he : e ∈ v.listing.members) : IsKey K e.1 := by
  by_cases hv : v.HasAttributes
  · obtain ⟨name, hname⟩ := hv.exists_text he
    rw [hname]
    exact ⟨hK.names name, rfl⟩
  · cases v with
    | mapping => exact hkeys.1 e he
    | sequence =>
        obtain ⟨i, hkey, -⟩ := mem_positions_iff.mp he
        rw [hkey]
        exact ⟨hK.positions _, rfl⟩
    | _ => exact absurd ⟨rfl, rfl⟩ hv

end

namespace Container

variable (hK : Coherent K) (hv : v.Container) (hkeys : v.WellKeyed K)

include hv hkeys in
theorem members_pairwise :
    v.listing.members.Pairwise fun e e' => sameKey e.1 e'.1 = false := by
  cases hv with
  | mapping => exact hkeys.2
  | sequence => exact positions_pairwise 0 _

include hv in
/-- What a container holds under a key it lists under the same key. -/
theorem exists_member (h : v.Holds key held) :
    ∃ e ∈ v.listing.members, sameKey e.1 key = true ∧ e.2 = held := by
  cases hv with
  | mapping =>
      obtain ⟨e, hfound, rfl⟩ := exists_entryAt_of_holds h
      rw [entryAt?] at hfound
      have hsame := List.find?_some hfound
      exact ⟨e, List.mem_of_find?_eq_some hfound, hsame, rfl⟩
  | sequence =>
      obtain ⟨i, hposition, hitem⟩ := holds_sequence_iff.mp h
      refine ⟨(int i, held), mem_positions_iff.mpr ⟨i, by simp, hitem⟩, ?_, rfl⟩
      exact sameKey_of_position hposition

include hK hv hkeys

/-- No two members have the same key. -/
theorem member_unique (he : e ∈ v.listing.members) (he' : e' ∈ v.listing.members)
    (h : sameKey e.1 e'.1 = true) : e = e' := by
  have hkey := isKey_of_member hK hkeys he
  have hkey' := isKey_of_member hK hkeys he'
  apply @eq_of_pairwise_apart _ (fun e e' => sameKey e.1 e'.1) _ _ _
    (members_pairwise hv hkeys) he he' h
  exact hK.sameKey_symm hkey hkey' h

end Container

/-- A mapping holds an item under every key that is the same as the one it lists. -/
theorem holds_of_sameKey {mark : Nat} {kind : MappingKind} {entries : List (Value × Value)}
    (hK : Coherent K) (hkeys : (mapping mark kind entries).WellKeyed K) (he : e ∈ entries)
    (hkey : IsKey K key) (h : sameKey e.1 key = true) :
    (mapping mark kind entries).Holds key e.2 := by
  have hdeclared : declares entries key = true := List.any_eq_true.mpr ⟨e, he, h⟩
  have hpresent : (mapping mark kind entries).hasKey key = .ok true := by
    simp [hasKey, hkey.2, hdeclared]
  obtain ⟨held, hget⟩ := get_of_hasKey hpresent
  obtain ⟨e', he', hsame, rfl⟩ := Container.mapping.exists_member ⟨hpresent, hget⟩
  obtain rfl : e = e' := by
    apply Container.mapping.member_unique hK hkeys he he'
    exact hK.sameKey_of_right (hkeys.1 e he) (hkeys.1 e' he') hkey h hsame
  exact ⟨hpresent, hget⟩

/-- A container holds each item that it lists. -/
theorem Container.holds_of_member (hK : Coherent K) (hv : v.Container) (hkeys : v.WellKeyed K)
    (he : e ∈ v.listing.members) : v.Holds e.1 e.2 := by
  have hkey := isKey_of_member hK hkeys he
  cases hv with
  | mapping => exact holds_of_sameKey hK hkeys he hkey (hK.itself hkey.1 hkey.2)
  | sequence =>
      obtain ⟨i, hposition, hitem⟩ := mem_positions_iff.mp he
      refine holds_sequence_iff.mpr ⟨i, ?_, hitem⟩
      rw [hposition, Nat.zero_add]
      rfl

/-! ## Values under marks -/

/-- The mark of a value that is told apart from others by it. -/
def mark? : Value → Option Nat
  | sequence m .. | mapping m .. | bag m .. | buffer m _ | range m .. | record m _ | object m ..
  | classObject m _ | function m .. | applied m _ | guard m .. | tagged m .. | mismatch m _ => some m
  | atom .. | slotAccessor .. | computed _ | failing _ | decorated .. | method .. | native _ => none

/-- The elements of a frozen set are hashable, no two of them the same. -/
def ElementsApart : Value → Prop
  | bag _ .frozenset items => (∀ item ∈ items, item.isHashable = true) ∧
      items.Pairwise fun x y => sameKey x y = false
  | _ => True

/-- A value whose marks are consistent: what has a mark is the one value that is stored
under it, and so are the parts that equality looks at. -/
inductive Stored (store : Nat → Value) : Value → Prop
  | atom {m : Nat} {a : Atom} : Stored store (atom m a)
  | native {n : Native} : Stored store (native n)
  | slotAccessor {owner name : String} : Stored store (slotAccessor owner name)
  | method {self : Value} {name : String} (hself : Stored store self)
      (hidentical : identical self self = true) : Stored store (method self name)
  | marked {v : Value} {m : Nat} (hmark : v.mark? = some m) (hstore : store m = v)
      (hparts : ∀ part ∈ v.branches, Stored store part) (hapart : v.ElementsApart) :
      Stored store v

/-- Identity goes by content or by marks. -/
theorem content_or_mark_of_identical {a b : Value} (h : identical a b = true) :
    a.withMark 0 = b.withMark 0 ∨ ∃ m, a.mark? = some m ∧ b.mark? = some m := by
  unfold identical at h
  split at h <;> simp_all [mark?, withMark]

theorem identical_self_of_mark {m : Nat} (h : v.mark? = some m) : identical v v = true := by
  cases v with
  | sequence n kind items => cases kind <;> cases items <;> simp [identical]
  | atom | slotAccessor | computed | failing | decorated | method | native => cases h
  | _ => simp [identical]

theorem sameKey_of_identical {a b : Value} (h : identical a b = true) : sameKey a b = true := by
  simp [sameKey, h]

theorem Stored.eq_store {store : Nat → Value} {m : Nat} (h : Stored store v)
    (hmark : v.mark? = some m) : v = store m := by
  cases h with
  | marked hmark' hstore =>
      obtain rfl := Option.some.inj (hmark.symm.trans hmark')
      exact hstore.symm
  | _ => cases hmark

/-- Values whose marks are consistent are coherent, however deep they are. -/
theorem stored_coherent (store : Nat → Value) : Coherent (Stored store) where
  content := by
    intro a b ha hb h
    rcases content_or_mark_of_identical h with hcontent | ⟨m, hmark, hmark'⟩
    · exact hcontent
    · rw [ha.eq_store hmark, hb.eq_store hmark']
  itself := by
    intro v hv _
    cases hv with
    | atom | native | slotAccessor => exact sameKey_of_identical (by simp [identical])
    | method _ hidentical => simp [sameKey, equal, hidentical]
    | marked hmark => exact sameKey_of_identical (identical_self_of_mark hmark)
  branches := by
    intro v part hv hpart
    cases hv with
    | marked _ _ hparts => exact hparts part hpart
    | _ => cases hpart
  owner := by
    intro self name hv
    cases hv with
    | method hself => exact hself
    | marked hmark => cases hmark
  elements := by
    intro m items hv
    cases hv with
    | marked _ _ _ hapart => exact hapart
  positions _ := .atom
  names _ := .atom
  wildcard := .atom

end Value

end ShapeCheck
