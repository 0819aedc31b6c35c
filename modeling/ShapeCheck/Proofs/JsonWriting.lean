import Mathlib.Logic.Relation
import ShapeCheck.Json.Writer
import ShapeCheck.Proofs.Wordings

/-!
# What keeps a value from being written

A value is written as JSON text item by item.  What JSON has no notation for is told by its
plain text, but only where it stands as an item: the key of an object has no such fallback.
A constant that is also an integer is written by its digits, although its plain text is its
name, so that it may not be written although it has a text.

Main statement: a value that is not written writes something that has a key without a text,
or has no text itself (`exists_blocks`).
-/

namespace ShapeCheck

/-- Mappings of these kinds are written as objects. -/
def MappingKind.isOrdinary : MappingKind → Bool
  | dict | ordered | defaulting => true
  | readOnly | layered | wrapped => false

namespace Value

/-- Tells whether a value is written item by item. -/
def isComposed : Value → Bool
  | sequence .. => true
  | mapping _ kind _ => kind.isOrdinary
  | _ => false

/-- What becomes the keys of an object. -/
def writtenKeys : Value → List Value
  | mapping _ kind entries => if kind.isOrdinary then entries.map Prod.fst else []
  | _ => []

/-- What is written as the items of an array or of an object. -/
def writtenItems : Value → List Value
  | sequence _ _ items => items
  | mapping _ kind entries => if kind.isOrdinary then entries.map Prod.snd else []
  | _ => []

/-- Writing a value comes to writing another one. -/
def Writes : Value → Value → Prop := Relation.ReflTransGen fun v item => item ∈ v.writtenItems

/-- A constant that is also an integer, of too many digits to be written. -/
inductive Lengthy (reason : Fault) : Value → Prop
  | intro {mark : Nat} {owner name : String} {i : Int} {derived : Bool}
      (hdigits : Number.intText i = .error reason) :
      Lengthy reason (atom mark (.symbol (.quantity owner name (.int i derived))))

/-- The key of an object has a text. -/
def HasKeyText (key : Value) : Prop := ∃ s, Json.keyText .standard key = .ok (some s)

end Value

/-! ## Writing items -/

namespace Json

open Value

variable {v key x item : Value} {level : Nat} {reason : Fault}

/-- The notation of an atom fails only for want of a plain text, or for its digits. -/
theorem plain_or_lengthy_of_atomText (mark : Nat) {a : Atom}
    (h : atomText? true true a = some (.error reason)) :
    a.plain = .error reason ∨ Lengthy reason (.atom mark a) := by
  cases a with
  | number n =>
      cases n with
      | int i => exact .inl (Option.some.inj h)
      | binary x => cases x <;> cases h
      | _ => cases h
  | symbol s =>
      cases s with
      | numeric owner name content => exact .inl (Option.some.inj h)
      | quantity owner name content =>
          cases content with
          | int i => exact .inr (.intro (Option.some.inj h))
          | binary x => cases x <;> cases h
          | _ => cases h
      | _ => cases h
  | _ => cases h

theorem plain_or_lengthy_of_keyText (mark : Nat) {a : Atom}
    (h : keyText? true a = some (.error reason)) :
    a.plain = .error reason ∨ Lengthy reason (.atom mark a) := by
  unfold keyText? at h
  split at h
  · cases h
  · cases h
  · exact plain_or_lengthy_of_atomText mark h

theorem keyText_cases (key : Value) :
    key.HasKeyText ∨ ∃ reason, keyText .standard key = .error reason := by
  cases key with
  | atom mark a =>
      simp only [HasKeyText, keyText]
      rcases keyText? Options.standard.special a with _ | (reason | s)
      · exact .inr ⟨_, rfl⟩
      · exact .inr ⟨_, rfl⟩
      · exact .inl ⟨s, rfl⟩
  | _ => exact .inr ⟨_, rfl⟩

/-- A key that has a plain text can only be refused for its type, or for its digits. -/
theorem refused_of_keyText (htext : ∃ s, key.plain = .ok s)
    (h : keyText .standard key = .error reason) :
    reason = .keyNotEncodable key.qualifiedTypeName ∨ Lengthy reason key := by
  cases key with
  | atom mark a =>
      simp only [keyText] at h
      rcases hwritten : keyText? Options.standard.special a with _ | (fault | s)
      · rw [hwritten] at h
        exact .inl (Except.error.inj h).symm
      · rw [hwritten] at h
        obtain rfl := Except.error.inj h
        obtain ⟨s, hs⟩ := htext
        rcases plain_or_lengthy_of_keyText mark hwritten with hplain | hlengthy
        · cases hs.symm.trans hplain
        · exact .inr hlengthy
      · rw [hwritten] at h
        cases h
  | _ => exact .inl (Except.error.inj h).symm

theorem keyText_of_lengthy (h : Lengthy reason key) : keyText .standard key = .error reason := by
  obtain ⟨hdigits⟩ := h
  simp only [keyText, keyText?, atomText?, hdigits]
  rfl

theorem writeAt_of_lengthy (h : Lengthy reason v) : writeAt .standard level v = .error reason := by
  obtain ⟨hdigits⟩ := h
  simp only [writeAt, atomText?, hdigits]

/-- The fault of writing an entry: that of its key, or else that of its item. -/
def entryFault (level : Nat) (e : Value × Value) : Option Fault :=
  (fault? (keyText .standard e.1)).or (fault? (writeAt .standard level e.2))

theorem fault_joinEntries (outer level : Nat) (entries : List (Value × Value)) :
    fault? (joinEntries .standard outer (writeEntries .standard level entries)) =
      entries.findSome? (entryFault level) := by
  induction entries with
  | nil => rfl
  | cons e entries ih =>
      rw [List.findSome?_cons, entryFault, writeEntries, joinEntries, ← ih]
      rcases keyText_cases e.1 with ⟨s, hkey⟩ | ⟨reason, hkey⟩
      · rw [hkey]
        cases writeAt .standard level e.2 <;>
          cases joinEntries .standard outer (writeEntries .standard level entries) <;> rfl
      · rw [hkey]
        rfl

theorem fault_objectText (level : Nat) (entries : List (Value × Value)) :
    fault? (objectText .standard level (writeEntries .standard (level + 1) entries)) =
      entries.findSome? (entryFault (level + 1)) := by
  rw [← fault_joinEntries level]
  cases entries with
  | nil => rfl
  | cons e entries =>
      change fault? (joinEntries .standard level _ >>= _) = _
      cases joinEntries .standard level (writeEntries .standard (level + 1) (e :: entries)) <;> rfl

theorem fault_writeItems (level : Nat) (items : List Value) :
    fault? (writeItems .standard level items) =
      items.findSome? fun item => fault? (writeAt .standard level item) := by
  induction items with
  | nil => rfl
  | cons item items ih =>
      rw [List.findSome?_cons, writeItems, ← ih]
      cases writeAt .standard level item <;> cases writeItems .standard level items <;> rfl

theorem writeAt_of_ordinary {kind : MappingKind} (hkind : kind.isOrdinary = true) (mark : Nat)
    (entries : List (Value × Value)) :
    fault? (writeAt .standard level (.mapping mark kind entries)) =
      entries.findSome? (entryFault (level + 1)) := by
  rw [← fault_objectText]
  cases kind <;> first | rfl | cases hkind

theorem fault_writeAt_sequence (mark : Nat) (kind : SequenceKind) (items : List Value) :
    fault? (writeAt .standard level (.sequence mark kind items)) =
      items.findSome? fun item => fault? (writeAt .standard (level + 1) item) := by
  rw [← fault_writeItems]
  cases items with
  | nil => rfl
  | cons item items =>
      change fault? (writeItems .standard (level + 1) (item :: items) >>= _) = _
      cases writeItems .standard (level + 1) (item :: items) <;> rfl

/-- What is not written item by item fails only for want of a plain text, or for its digits. -/
theorem plain_or_lengthy_of_fault (hcomposed : v.isComposed = false)
    (h : writeAt .standard level v = .error reason) :
    v.plain = .error reason ∨ Lengthy reason v := by
  have hfallback (x : Value) (h : fallbackText .standard x = .error reason) :
      x.plain = .error reason := by
    rw [← fault_some_iff] at h ⊢
    exact (fault_map _ _).symm.trans h
  cases v with
  | atom mark a =>
      rw [writeAt] at h
      split at h
      next written hwritten =>
        exact plain_or_lengthy_of_atomText mark (hwritten.trans (congrArg some h))
      next => exact .inl (hfallback _ h)
  | sequence => cases hcomposed
  | mapping mark kind entries =>
      cases kind <;> first | exact .inl (hfallback _ h) | cases hcomposed
  | _ => exact .inl (hfallback _ h)

theorem entryFault_eq_none_iff {e : Value × Value} :
    entryFault level e = none ↔
      e.1.HasKeyText ∧ fault? (writeAt .standard level e.2) = none := by
  rw [entryFault, Option.or_eq_none_iff]
  refine and_congr_left fun _ => ?_
  rcases keyText_cases e.1 with ⟨s, hkey⟩ | ⟨reason, hkey⟩
  · exact iff_of_true (hkey ▸ rfl) ⟨s, hkey⟩
  · refine iff_of_false (hkey ▸ nofun) ?_
    rintro ⟨s, hs⟩
    cases hs.symm.trans hkey

/-- Once a value is written its keys and its items are. -/
theorem written_items (h : fault? (writeAt .standard level v) = none) :
    (∀ key ∈ v.writtenKeys, key.HasKeyText) ∧
      ∀ item ∈ v.writtenItems, ∃ level, fault? (writeAt .standard level item) = none := by
  cases v with
  | sequence mark kind items =>
      rw [fault_writeAt_sequence, List.findSome?_eq_none_iff] at h
      exact ⟨nofun, fun item hitem => ⟨_, h item hitem⟩⟩
  | mapping mark kind entries =>
      cases hkind : kind.isOrdinary with
      | true =>
          rw [writeAt_of_ordinary hkind, List.findSome?_eq_none_iff] at h
          simp only [entryFault_eq_none_iff] at h
          simp only [writtenKeys, writtenItems, hkind, if_true, List.forall_mem_map]
          exact ⟨fun e he => (h e he).1, fun e he => ⟨_, (h e he).2⟩⟩
      | false => simp [writtenKeys, writtenItems, hkind]
  | _ => exact ⟨nofun, nofun⟩

/-- What keeps a value by itself from being written: a key, the want of a plain text, or its
digits. -/
inductive Blocks (x : Value) (reason : Fault) : Prop
  | key {key : Value} (hkey : key ∈ x.writtenKeys)
      (hrefused : keyText .standard key = .error reason)
  | plain (hcomposed : x.isComposed = false) (hplain : x.plain = .error reason)
  | digits (hlengthy : Lengthy reason x)

theorem blocks_of_fault (hcomposed : v.isComposed = false)
    (h : writeAt .standard level v = .error reason) : Blocks v reason :=
  (plain_or_lengthy_of_fault hcomposed h).elim (.plain hcomposed) .digits

theorem blocks_or_item (h : writeAt .standard level v = .error reason) :
    Blocks v reason ∨
      ∃ item ∈ v.writtenItems, ∃ level, writeAt .standard level item = .error reason := by
  have hfault := fault_some_iff.mpr h
  cases v with
  | sequence mark kind items =>
      rw [fault_writeAt_sequence] at hfault
      obtain ⟨item, hitem, hwrite⟩ := List.exists_of_findSome?_eq_some hfault
      exact .inr ⟨item, hitem, _, fault_some_iff.mp hwrite⟩
  | mapping mark kind entries =>
      cases hkind : kind.isOrdinary with
      | true =>
          rw [writeAt_of_ordinary hkind] at hfault
          obtain ⟨e, he, hentry⟩ := List.exists_of_findSome?_eq_some hfault
          rcases Option.or_eq_some_iff.mp hentry with hkey | ⟨-, hitem⟩
          · have hmem : e.1 ∈ (Value.mapping mark kind entries).writtenKeys := by
              rw [writtenKeys, if_pos hkind]
              exact List.mem_map_of_mem he
            exact .inl (.key hmem (fault_some_iff.mp hkey))
          · refine .inr ⟨e.2, ?_, _, fault_some_iff.mp hitem⟩
            rw [writtenItems, if_pos hkind]
            exact List.mem_map_of_mem he
      | false => exact .inl (blocks_of_fault hkind h)
  | _ => exact .inl (blocks_of_fault rfl h)

theorem sizeOf_lt_of_mem_writtenItems (h : item ∈ v.writtenItems) : sizeOf item < sizeOf v := by
  cases v with
  | sequence mark kind items =>
      have hitem : sizeOf item < sizeOf items := List.sizeOf_lt_of_mem h
      rw [Value.sequence.sizeOf_spec]
      omega
  | mapping mark kind entries =>
      rw [writtenItems] at h
      split at h
      · obtain ⟨e, he, rfl⟩ := List.mem_map.mp h
        have hentry := List.sizeOf_lt_of_mem he
        have hsize : sizeOf e = 1 + sizeOf e.1 + sizeOf e.2 := rfl
        rw [Value.mapping.sizeOf_spec]
        omega
      · cases h
  | _ => cases h

/-- A value that is not written writes something that keeps it from being written. -/
theorem exists_blocks (h : writeAt .standard level v = .error reason) :
    ∃ x, v.Writes x ∧ Blocks x reason := by
  induction hsize : sizeOf v using Nat.strongRecOn generalizing v level with
  | _ n ih =>
      rcases blocks_or_item h with hblocks | ⟨item, hitem, level, hwrite⟩
      · exact ⟨v, .refl, hblocks⟩
      · have hlt := sizeOf_lt_of_mem_writtenItems hitem
        obtain ⟨x, hwrites, hblocks⟩ := ih _ (hsize ▸ hlt) hwrite rfl
        exact ⟨x, .head hitem hwrites, hblocks⟩

/-- With a value all that it writes is written. -/
theorem written_of_writes (h : fault? (writeAt .standard level v) = none) (hx : v.Writes x) :
    ∃ level, fault? (writeAt .standard level x) = none := by
  induction hx with
  | refl => exact ⟨level, h⟩
  | tail _ hitem ih =>
      obtain ⟨level, hwritten⟩ := ih
      exact (written_items hwritten).2 _ hitem

/-- A value that is written only writes keys that have a text. -/
theorem hasKeyText_of_written (h : fault? (writeAt .standard level v) = none) (hx : v.Writes x)
    (hkey : key ∈ x.writtenKeys) : key.HasKeyText := by
  obtain ⟨level, hwritten⟩ := written_of_writes h hx
  exact (written_items hwritten).1 key hkey

end Json

end ShapeCheck
