import ShapeCheck.Proofs.Unfolding

/-!
# Keys that are texts

A text may have several copies, and some symbols are texts too.  As keys they all stand
for the same: whatever a container has under one of them it has under the others.
-/

namespace ShapeCheck

theorem Atom.equal_of_asText {a b : Atom} {name : String} (hb : b.asText? = some name) :
    a.equal b = .ok (decide (a.asText? = some name)) := by
  unfold equal
  rw [hb]
  cases a.asText? <;> simp

namespace Value

/-- A stored key is the same as a text if it is that text. -/
theorem sameKey_iff_asText {stored key : Value} {name : String} (hkey : key.asText? = some name) :
    sameKey stored key = true ↔ stored.asText? = some name := by
  cases key with
  | atom m a =>
      have ha : a.asText? = some name := hkey
      cases stored with
      | atom n b =>
          have hequal : (atom n b).equal (atom m a) = .ok (decide (b.asText? = some name)) :=
            Atom.equal_of_asText ha
          have hidentical : (atom n b).identical (atom m a) = true → b.asText? = some name := by
            intro h
            have hba : b = a := of_decide_eq_true (Bool.and_eq_true_iff.mp h).1
            rw [hba, ha]
          rw [sameKey, hequal, Bool.or_eq_true, decide_eq_true_iff]
          exact ⟨fun h => h.elim hidentical id, .inr⟩
      | buffer n bytes =>
          cases a with
          | bytes => cases ha
          | _ => exact iff_of_false Bool.false_ne_true nofun
      | sequence n kind items =>
          cases kind <;> cases items <;> exact iff_of_false Bool.false_ne_true nofun
      | bag n kind items => cases kind <;> exact iff_of_false Bool.false_ne_true nofun
      | _ => exact iff_of_false Bool.false_ne_true nofun
  | _ => cases hkey

theorem isHashable_of_asText {key : Value} {name : String} (hkey : key.asText? = some name) :
    key.isHashable = true := by
  cases key with
  | atom m a =>
      cases a with
      | number => cases hkey
      | symbol s => cases s <;> first | rfl | cases hkey
      | _ => rfl
  | _ => cases hkey

theorem position_of_asText {key : Value} {name : String} (hkey : key.asText? = some name) :
    key.position? = none := by
  cases key with
  | atom m a =>
      cases a with
      | number => cases hkey
      | symbol s => cases s <;> first | rfl | cases hkey
      | _ => rfl
  | _ => cases hkey

section

variable {key key' : Value} {name : String} (hkey : key.asText? = some name)
  (hkey' : key'.asText? = some name)

include hkey hkey'

theorem entryAt_of_sameText (entries : List (Value × Value)) :
    entryAt? entries key = entryAt? entries key' := by
  have hsame : ∀ e : Value × Value, sameKey e.1 key = sameKey e.1 key' := by
    intro e
    rw [Bool.eq_iff_iff, sameKey_iff_asText hkey, sameKey_iff_asText hkey']
  simp only [entryAt?, hsame]

/-- A text finds what any other copy of it finds. -/
theorem hasKey_of_sameText (shape : Value) : shape.hasKey key = shape.hasKey key' := by
  by_cases hattributes : shape.HasAttributes
  · rw [hattributes.hasKey_eq, hattributes.hasKey_eq, hkey, hkey']
  · cases shape with
    | mapping mark kind entries =>
        simp only [hasKey, isHashable_of_asText hkey, isHashable_of_asText hkey', if_true]
        rw [← entryAt?_isSome, ← entryAt?_isSome, entryAt_of_sameText hkey hkey']
    | sequence => simp only [hasKey, position_of_asText hkey, position_of_asText hkey']
    | _ => exact absurd ⟨rfl, rfl⟩ hattributes

theorem Holds.of_sameText {shape schema : Value} (h : shape.Holds key schema) :
    shape.Holds key' schema := by
  have hfound : shape.hasKey key' = .ok true := hasKey_of_sameText hkey hkey' shape ▸ h.1
  refine ⟨hfound, ?_⟩
  have hget := h.2
  by_cases hattributes : shape.HasAttributes
  · rw [hattributes.get_eq, hkey] at hget
    rw [hattributes.get_eq, hkey']
    exact hget
  · cases shape with
    | mapping mark kind entries =>
        obtain ⟨e, he, rfl⟩ := exists_entryAt_of_holds h
        simp [get, isHashable_of_asText hkey', ← entryAt_of_sameText hkey hkey', he]
    | sequence => simp [hasKey, position_of_asText hkey'] at hfound
    | _ => exact absurd ⟨rfl, rfl⟩ hattributes

theorem Assigns.of_sameText {shape schema : Value} (h : shape.Assigns key schema) :
    shape.Assigns key' schema := by
  rcases h with h | h
  · exact .inl (h.of_sameText hkey hkey')
  · exact .inr ⟨hasKey_of_sameText hkey hkey' shape ▸ h.1, h.2⟩

end

end Value

end ShapeCheck
