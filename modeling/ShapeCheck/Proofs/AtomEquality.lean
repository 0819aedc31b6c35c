import Mathlib.Data.Rat.Lemmas
import ShapeCheck.Proofs.Refusals

/-!
# Equality of atoms

Atoms of many kinds may be equal to each other, and what they are compared by can be read
off each atom alone: its text, the point of the plane that it denotes, or else the atom
itself.  A number that is undefined in some part shows no such face and is equal to
nothing, not even to itself.  Equality is therefore symmetric and transitive across all
kinds, although it is not reflexive.
-/

namespace ShapeCheck

namespace Binary64

theorem extent_eq_zero_iff {x : Binary64} : x.extent = .rational 0 ↔ x.isZero = true := by
  cases x with
  | nan | infinity => simp [extent, isZero]
  | finite negative m e =>
      cases negative <;> by_cases he : 0 ≤ e <;>
        simp [extent, toRat?, isZero, he, Rat.mkRat_eq_zero]

end Binary64

namespace Number

/-- What a number denotes in the plane: its real and its imaginary part. -/
def parts : Number → Extent × Extent
  | int i _ => (.rational i, .rational 0)
  | binary x => (x.extent, .rational 0)
  | decimal d => (d.extent, .rational 0)
  | fraction q => (.rational q, .rational 0)
  | complex re im => (re.extent, im.extent)

theorem extent_eq_of_parts (n : Number) :
    n.extent? = if n.parts.2 = .rational 0 then some n.parts.1 else none := by
  cases n with
  | complex re im => simp [extent?, parts, Binary64.extent_eq_zero_iff]
  | _ => simp [extent?, parts]

theorem parts_of_isSignaling {n : Number} (h : n.isSignaling = true) :
    n.parts.1 = .undefined := by
  cases n with
  | decimal d =>
      cases d with
      | nan => rfl
      | _ => simp [isSignaling, Decimal.isSignaling] at h
  | _ => simp [isSignaling] at h

/-- Two numbers are equal exactly if they denote the same point of the plane. -/
theorem equal_eq_true_iff {m n : Number} :
    m.equal n = .ok true ↔
      m.parts = n.parts ∧ m.parts.1 ≠ .undefined ∧ m.parts.2 ≠ .undefined := by
  have hsignaling : (m.isSignaling || n.isSignaling) = true →
      ¬ (m.parts = n.parts ∧ m.parts.1 ≠ .undefined ∧ m.parts.2 ≠ .undefined) := by
    rintro h ⟨hparts, hdefined, -⟩
    rcases Bool.or_eq_true_iff.mp h with hm | hn
    · exact hdefined (parts_of_isSignaling hm)
    · exact hdefined (hparts ▸ parts_of_isSignaling hn)
  unfold equal
  split
  next re im re' im' =>
    simp only [parts, Binary64.equal]
    grind
  next hcomplex =>
    have hreal : m.parts.2 = .rational 0 ∨ n.parts.2 = .rational 0 := by
      cases m with
      | complex re im =>
          cases n with
          | complex re' im' => exact (hcomplex re im re' im' rfl rfl).elim
          | _ => exact .inr rfl
      | _ => exact .inl rfl
    rw [extent_eq_of_parts, extent_eq_of_parts]
    have hdiffer (hne : m.parts.2 ≠ n.parts.2) : m.parts ≠ n.parts :=
      fun hparts => hne (congrArg Prod.snd hparts)
    by_cases hm : m.parts.2 = .rational 0
    · by_cases hn : n.parts.2 = .rational 0
      · by_cases hs : (m.isSignaling || n.isSignaling) = true
        · have hnot := hsignaling hs
          simp [hm, hn, hs] at hnot ⊢
          exact hnot
        · simp [hm, hn, hs, Prod.ext_iff]
      · have hne := hdiffer (hm ▸ Ne.symm hn)
        simp [hm, hn, hne]
    · have hn := hreal.resolve_left hm
      have hne := hdiffer (hn ▸ hm)
      simp [hm, hn, hne]

end Number

namespace Atom

/-- What an atom is compared by: its text, the point that it denotes as a number, or else
itself. -/
inductive Face where
  | text (s : String)
  | point (p : Extent × Extent)
  | self (a : Atom)

/-- The face of an atom.  A number that is undefined in some part has none. -/
def face? (a : Atom) : Option Face :=
  match a.asText?, a.asNumber? with
  | some s, _ => some (.text s)
  | none, some n =>
    if n.parts.1 = .undefined ∨ n.parts.2 = .undefined then none else some (.point n.parts)
  | none, none => some (.self a)

theorem face_ne_text {a : Atom} (ha : a.asText? = none) (s : String) :
    a.face? ≠ some (.text s) := by
  unfold face?
  rw [ha]
  split <;> simp_all

/-- Two atoms are equal exactly if they show the same face. -/
theorem equal_eq_true_iff {a b : Atom} :
    a.equal b = .ok true ↔ ∃ face, a.face? = some face ∧ b.face? = some face := by
  cases ha : a.asText? with
  | some s =>
      have hface : a.face? = some (.text s) := by simp [face?, ha]
      cases hb : b.asText? with
      | some t => simp [equal, face?, ha, hb, eq_comm]
      | none => simp [equal, hface, ha, hb, face_ne_text hb]
  | none =>
      cases hb : b.asText? with
      | some t =>
          have hface : b.face? = some (.text t) := by simp [face?, hb]
          simp [equal, hface, ha, hb, face_ne_text ha]
      | none =>
          cases hm : a.asNumber? with
          | none =>
              cases hn : b.asNumber? with
              | none => simp [equal, face?, ha, hb, hm, hn, eq_comm]
              | some n => simp [equal, face?, ha, hb, hm, hn]
          | some m =>
              cases hn : b.asNumber? with
              | none => simp [equal, face?, ha, hb, hm, hn]
              | some n =>
                  simp only [equal, face?, ha, hb, hm, hn, Number.equal_eq_true_iff]
                  constructor
                  · rintro ⟨hparts, hdefined⟩
                    rw [← not_or] at hdefined
                    exact ⟨.point m.parts, if_neg hdefined, hparts ▸ if_neg hdefined⟩
                  · rintro ⟨face, hface, hface'⟩
                    split_ifs at hface hface' with hundefined
                    rw [not_or] at hundefined
                    cases hface
                    simpa [hundefined, eq_comm] using hface'

end Atom
end ShapeCheck
