import Mathlib.Algebra.Group.Nat.Defs
import ShapeCheck.Proofs.Keys

/-!
# Comparisons and lookups that fail

A check compares atoms with literals, asks containers for keys and lists their members.
Each of these fails in one way only: a comparison at a signaling decimal, a mapping at a
key that cannot be one, and everything else at a computed attribute that fails.
-/

namespace ShapeCheck

/-- Two numbers refuse to be compared where one of them is a signaling decimal and both
denote something on the real line. -/
theorem Number.equal_eq_error_iff {m n : Number} {fault : Fault} :
    m.equal n = .error fault ↔
      (m.isSignaling = true ∨ n.isSignaling = true) ∧ m.extent?.isSome = true ∧
        n.extent?.isSome = true ∧ fault = .invalidDecimal := by
  unfold equal
  split
  next => simp [isSignaling]
  next =>
    split
    next x y hx hy =>
      rw [← Bool.or_eq_true, hx, hy]
      split
      next hsignaling => simp [hsignaling, @eq_comm _ fault]
      next hquiet => simp [hquiet]
    next hnone =>
      constructor
      · nofun
      · rintro ⟨-, hm, hn, -⟩
        obtain ⟨x, hx⟩ := Option.isSome_iff_exists.mp hm
        obtain ⟨y, hy⟩ := Option.isSome_iff_exists.mp hn
        exact absurd hy (hnone x y hx)

/-- An integer has no text where it has too many digits. -/
theorem Number.intText_eq_error_iff {i : Int} {fault : Fault} :
    intText i = .error fault ↔ 10 ^ maxDigits ≤ i.natAbs ∧ fault = .digitLimit := by
  rw [intText, Nat.pow_eq]
  by_cases hshort : i.natAbs < 10 ^ maxDigits
  · rw [if_pos hshort]
    exact iff_of_false nofun fun hlong => absurd hshort (Nat.not_lt.mpr hlong.1)
  · rw [if_neg hshort]
    simp [Nat.not_lt.mp hshort, @eq_comm _ fault]

namespace Atom

theorem asNumber_of_asText {a : Atom} {s : String} (h : a.asText? = some s) :
    a.asNumber? = none := by
  cases a with
  | symbol c => cases c <;> first | rfl | cases h
  | text => rfl
  | _ => cases h

theorem equal_eq_error_iff {a b : Atom} {fault : Fault} :
    a.equal b = .error fault ↔
      ∃ m n, a.asNumber? = some m ∧ b.asNumber? = some n ∧ m.equal n = .error fault := by
  unfold equal
  split
  next hs ht => simp [asNumber_of_asText hs]
  next hs ht => simp [asNumber_of_asText hs]
  next hs ht => simp [asNumber_of_asText ht]
  next =>
    split
    next m n hm hn => simp [hm, hn]
    next hm hn => simp [hn]
    next hm hn => simp [hm]
    next hm hn => simp [hm]

end Atom

namespace Value

theorem objectAttribute_eq_error_iff {mark : Nat} {layers : List (Layer Value)}
    {slots fields : List (String × Value)} {name : String} {fault : Fault} :
    objectAttribute? mark layers slots fields name = .error fault ↔
      ∃ kind, classMember? layers name = some (.attr (failing kind)) ∧
        kind ≠ "AttributeError" ∧ fault = .raised kind "property failed" := by
  unfold objectAttribute?
  split
  next hmember => simp [hmember]
  next hmember => simp [hmember]
  next kind hmember =>
    split
    next hkind => simp [hmember, hkind]
    next hkind => simp [hmember, hkind, @eq_comm _ fault]
  next v _ hfailing hmember =>
    constructor
    · nofun
    · rintro ⟨kind, hkind, -⟩
      rw [hmember] at hkind
      cases hkind
      exact absurd rfl (hfailing kind)
  next hmember => simp [hmember]

/-- A key cannot be looked for in a mapping if it cannot be a key at all, and elsewhere if
it names an attribute whose computation fails. -/
theorem hasKey_eq_error_iff {container key : Value} {fault : Fault} :
    container.hasKey key = .error fault ↔
      (container.isMapping = true ∧ key.isHashable = false ∧ fault = .wrongType) ∨
        ∃ name, container.HasAttributes ∧ key.asText? = some name ∧
          container.attribute? name = .error fault := by
  by_cases hattributes : container.HasAttributes
  · have hmapping := hattributes.1
    rw [hattributes.hasKey_eq]
    cases key.asText? with
    | none => simp [hmapping]
    | some name =>
        rcases hfound : container.attribute? name with fault' | found
        · simp [hmapping, hattributes, hfound, Except.map]
        · simp [hmapping, hfound, Except.map]
  · cases container with
    | mapping mark kind entries =>
        cases hhashable : key.isHashable with
        | true => simp [hasKey, hhashable, HasAttributes, isMapping]
        | false => simp [hasKey, hhashable, HasAttributes, isMapping, @eq_comm _ fault]
    | sequence => simp [hasKey, isMapping, HasAttributes, isSequence]
    | _ => exact absurd ⟨rfl, rfl⟩ hattributes

theorem readSlots_fault {read : String → Except Fault (Option Value)} {names : List String}
    {fault : Fault} (h : (readSlots read names).2 = some fault) :
    ∃ name ∈ names, read name = .error fault := by
  induction names with
  | nil => cases h
  | cons name rest ih =>
      rw [readSlots] at h
      rcases hread : read name with fault' | _ | v
      · rw [hread] at h
        exact ⟨name, List.mem_cons_self, Option.some.inj h ▸ hread⟩
      · rw [hread] at h
        obtain ⟨other, hother, hfails⟩ := ih h
        exact ⟨other, List.mem_cons_of_mem _ hother, hfails⟩
      · rw [hread] at h
        obtain ⟨other, hother, hfails⟩ := ih h
        exact ⟨other, List.mem_cons_of_mem _ hother, hfails⟩

/-- The members of a value cannot all be listed if it is an object with a slot whose
name a class covers with an attribute that fails. -/
theorem listing_fault {v : Value} {fault : Fault} (h : v.listing.fault = some fault) :
    ∃ mark layers slots fields, v = object mark layers slots fields ∧
      ∃ name ∈ listedSlots layers, v.attribute? name = .error fault := by
  cases v with
  | object mark layers slots fields =>
      refine ⟨mark, layers, slots, fields, rfl, readSlots_fault ?_⟩
      simp only [listing] at h
      split at h
      next held fault' hheld => rw [hheld]; exact h
      next => cases h
  | function mark name attrs schema => cases name <;> cases h
  | _ => cases h

end Value

end ShapeCheck
