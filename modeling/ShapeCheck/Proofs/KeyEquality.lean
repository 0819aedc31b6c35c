import Mathlib.Data.List.Forall2
import ShapeCheck.Proofs.AtomEquality

/-!
# When two keys are the same

Two keys are the same if they are one value or if they are equal, and equality looks at
the parts of a key: the elements of tuples and frozen sets, the schemas inside a tagged
schema, the values that a mismatch mentions.  Parts are compared as keys again.

Main statement: two keys are the same exactly if they are identical or match by what they
hold (`Coherent.same_iff`).  This needs identity to be what it should, which is an
assumption about marks, and it needs comparisons among keys to have an answer, which they
do because a key holds no signaling decimal.
-/

namespace ShapeCheck

/-- A form without its parts. -/
def Form.skeleton {α : Type} : Form α → Form Unit
  | bare => .bare
  | atomic => .atomic
  | family f => .family f
  | checker f _ => .checker f ()
  | array _ => .array ()
  | record _ => .record ()
  | optional .. => .optional [] []
  | union _ => .union []

/-- The parts of a form, the entries of an object aside. -/
def Form.leaves {α : Type} : Form α → List α
  | checker _ p => [p]
  | array e => [e]
  | record v => [v]
  | union alternatives => alternatives
  | bare | atomic | family _ | optional .. => []

/-- A mismatch without the values that it mentions. -/
def Mismatch.skeleton {α : Type} : Mismatch α → Mismatch Unit
  | incorrectType .. => .incorrectType () ()
  | incorrectValue .. => .incorrectValue () ()
  | unionNoMatch _ => .unionNoMatch []
  | arrayError error index => .arrayError error.skeleton index
  | recordError error _ => .recordError error.skeleton ()
  | objectError error _ => .objectError error.skeleton ()
  | requiredKeyMissing _ => .requiredKeyMissing ()
  | illegalExtraKey _ => .illegalExtraKey ()
  | checkerFailed reason => .checkerFailed reason

/-- The values that a mismatch mentions, those of alternatives aside. -/
def Mismatch.leaves {α : Type} : Mismatch α → List α
  | incorrectType expected got | incorrectValue expected got => [expected, got]
  | arrayError error _ => error.leaves
  | recordError error key | objectError error key => key :: error.leaves
  | requiredKeyMissing key | illegalExtraKey key => [key]
  | unionNoMatch _ | checkerFailed _ => []

namespace Value

theorem withMark_withMark (m n : Nat) (v : Value) : (v.withMark m).withMark n = v.withMark n := by
  cases v <;> rfl

theorem exists_withMark (v : Value) : ∃ m, v = v.withMark m := by
  cases v <;> first | exact ⟨_, rfl⟩ | exact ⟨0, rfl⟩

/-- Values with the same content are copies of each other. -/
theorem eq_withMark_of_content {a b : Value} (h : a.withMark 0 = b.withMark 0) :
    ∃ m, b = a.withMark m := by
  obtain ⟨m, hm⟩ := exists_withMark b
  refine ⟨m, ?_⟩
  rw [hm, ← withMark_withMark 0 m b, ← h, withMark_withMark]

theorem identical_atom_iff {m n : Nat} {a : Atom} :
    identical (atom m a) (atom n a) = true ↔ m = n ∨ a.isShared = true := by
  simp [identical]

/-- Sequences are identical if they are copies of one, or both the empty tuple. -/
theorem identical_sequence_iff {m n : Nat} {kind kind' : SequenceKind} {items items' : List Value} :
    identical (sequence m kind items) (sequence n kind' items') = true ↔
      m = n ∨ (kind = .tuple ∧ items = []) ∧ kind' = .tuple ∧ items' = [] := by
  cases kind <;> cases items <;> cases kind' <;> cases items' <;> simp [identical]

theorem identical_symm {a b : Value} (hcontent : a.withMark 0 = b.withMark 0)
    (h : identical a b = true) : identical b a = true := by
  obtain ⟨m, rfl⟩ := eq_withMark_of_content hcontent
  cases a with
  | atom =>
      rw [withMark, identical_atom_iff] at h ⊢
      exact h.imp_left Eq.symm
  | sequence =>
      rw [withMark, identical_sequence_iff] at h ⊢
      exact h.imp Eq.symm And.symm
  | _ => simp_all [identical, withMark]

/-- Values that are both identical to a third one are identical, where identity of
sequences means the same content. -/
theorem identical_trans {a b c : Value} (hcontent : a.withMark 0 = b.withMark 0)
    (hcontent' : b.withMark 0 = c.withMark 0) (hab : identical a b = true)
    (hbc : identical b c = true) : identical a c = true := by
  obtain ⟨m, rfl⟩ := eq_withMark_of_content hcontent
  rw [withMark_withMark] at hcontent'
  obtain ⟨n, rfl⟩ := eq_withMark_of_content hcontent'
  cases a with
  | atom =>
      rw [withMark, identical_atom_iff] at hab ⊢
      rw [withMark, withMark, identical_atom_iff] at hbc
      grind
  | sequence =>
      rw [withMark, identical_sequence_iff] at hab ⊢
      rw [withMark, withMark, identical_sequence_iff] at hbc
      grind
  | _ => simp_all [identical, withMark]

/-! ## Parts of hashable values -/

/-- Two parts of a value are found to be the same. -/
def Same (a b : Value) : Prop := orIdentical a b (equal a b) = .ok true

theorem sameKey_iff_same {a b : Value} : sameKey a b = true ↔ Same a b := by
  unfold sameKey Same orIdentical
  cases identical a b with
  | true => simp
  | false => cases equal a b <;> simp

theorem both_eq_ok_true {x y : Except Fault Bool} :
    (do if ← x then y else return false) = .ok true ↔ x = .ok true ∧ y = .ok true := by
  rcases x with fault | _ | _ <;> simp [bind, Except.bind, pure, Except.pure]

theorem unless_eq_ok_true {x y : Except Fault Bool} :
    (x >>= fun b => if b = false then pure false else y) = .ok true ↔
      x = .ok true ∧ y = .ok true := by
  rcases x with fault | _ | _ <;> simp [bind, Except.bind, pure, Except.pure]

theorem pure_eq_ok_true {b : Bool} : (pure b : Except Fault Bool) = .ok true ↔ b = true := by
  simp [pure, Except.pure]

theorem ite_eq_ok_true {p : Prop} [Decidable p] {x : Except Fault Bool} :
    (if p then x else .ok false) = .ok true ↔ p ∧ x = .ok true := by
  split_ifs <;> simp_all

theorem equalItems_eq_true_iff {items items' : List Value} :
    equalItems items items' = .ok true ↔ List.Forall₂ Same items items' := by
  induction items generalizing items' with
  | nil => cases items' <;> simp [equalItems]
  | cons head tail ih =>
      cases items' with
      | nil => simp [equalItems]
      | cons head' tail' =>
          rw [equalItems, both_eq_ok_true, ih, List.forall₂_cons]
          rfl

theorem equalForms_eq_true_iff {form form' : Form Value} (h : isHashableForm form = true) :
    equalForms form form' = .ok true ↔
      form.skeleton = form'.skeleton ∧ List.Forall₂ Same form.leaves form'.leaves := by
  cases form with
  | optional => simp [isHashableForm] at h
  | _ =>
      cases form' <;>
        simp [equalForms, Form.skeleton, Form.leaves, equalItems_eq_true_iff, ite_eq_ok_true, Same]

theorem equalMismatches_eq_true_iff : ∀ {m m' : Mismatch Value}, isHashableMismatch m = true →
    (equalMismatches m m' = .ok true ↔
      m.skeleton = m'.skeleton ∧ List.Forall₂ Same m.leaves m'.leaves)
  | .incorrectType .., m', _ | .incorrectValue .., m', _ => by
      cases m' <;>
        simp [equalMismatches, unless_eq_ok_true, Mismatch.skeleton, Mismatch.leaves, Same]
  | .arrayError error index, m', h => by
      have ih := fun m' => @equalMismatches_eq_true_iff error m' h
      cases m' <;>
        simp [equalMismatches, unless_eq_ok_true, pure_eq_ok_true, ih, Mismatch.skeleton,
          Mismatch.leaves, and_right_comm]
  | .recordError error key, m', h | .objectError error key, m', h => by
      have ih := fun m' => @equalMismatches_eq_true_iff error m' (Bool.and_eq_true_iff.mp h).1
      cases m' <;>
        simp [equalMismatches, unless_eq_ok_true, ih, Mismatch.skeleton, Mismatch.leaves, Same,
          and_assoc, and_comm, and_left_comm]
  | .requiredKeyMissing _, m', _ | .illegalExtraKey _, m', _ | .checkerFailed _, m', _ => by
      cases m' <;> simp [equalMismatches, Mismatch.skeleton, Mismatch.leaves, Same]
  | .unionNoMatch _, m', h => by simp [isHashableMismatch] at h

/-- The parts that the equality of a hashable value goes by. -/
def branches : Value → List Value
  | sequence _ _ items | bag _ _ items => items
  | tagged _ _ form => form.leaves
  | mismatch _ m => m.leaves
  | _ => []

/-- A set of values in which identity is what it should be: identical values have the same
content, and a key is the same as itself.  With a value the set has its parts, and the
elements of frozen sets are keys of which no two are the same.  It has the keys that values
list which are no mappings, and the wildcard. -/
structure Coherent (K : Value → Prop) : Prop where
  content {a b : Value} : K a → K b → identical a b = true → a.withMark 0 = b.withMark 0
  itself {v : Value} : K v → v.isHashable = true → sameKey v v = true
  branches {v part : Value} : K v → part ∈ v.branches → K part
  owner {self : Value} {name : String} : K (method self name) → K self
  elements {mark : Nat} {items : List Value} : K (bag mark .frozenset items) →
    (∀ item ∈ items, item.isHashable = true) ∧ items.Pairwise fun x y => sameKey x y = false
  positions (i : Nat) : K (int i)
  names (s : String) : K (text s)
  wildcard : K wildcard

/-- A value of a set that can be a key. -/
def IsKey (K : Value → Prop) (v : Value) : Prop := K v ∧ v.isHashable = true

variable {K : Value → Prop} {a b c : Value}

theorem allHashable_iff {items : List Value} :
    allHashable items = true ↔ ∀ item ∈ items, item.isHashable = true := by
  induction items with
  | nil => simp [allHashable]
  | cons head tail ih => simp [allHashable, ih]

theorem isHashable_of_mem_leaves_form {form : Form Value} (h : isHashableForm form = true) :
    ∀ part ∈ form.leaves, part.isHashable = true := by
  cases form with
  | union alternatives => exact allHashable_iff.mp h
  | checker | array | record => simpa [Form.leaves, isHashableForm] using h
  | _ => simp [Form.leaves]

theorem isHashable_of_mem_leaves : ∀ {m : Mismatch Value}, isHashableMismatch m = true →
    ∀ part ∈ m.leaves, part.isHashable = true
  | .incorrectType .., h | .incorrectValue .., h => by
      simpa [Mismatch.leaves, isHashableMismatch] using h
  | .arrayError error index, h => @isHashable_of_mem_leaves error h
  | .recordError error key, h | .objectError error key, h => by
      obtain ⟨herror, hkey⟩ := Bool.and_eq_true_iff.mp h
      simpa [Mismatch.leaves, hkey] using @isHashable_of_mem_leaves error herror
  | .requiredKeyMissing key, h | .illegalExtraKey key, h => by
      simpa [Mismatch.leaves, isHashableMismatch] using h
  | .unionNoMatch _, _ | .checkerFailed _, _ => by simp [Mismatch.leaves]

namespace Coherent

variable (hK : Coherent K)

include hK

theorem identical_comm (ha : K a) (hb : K b) : identical a b = identical b a := by
  rw [Bool.eq_iff_iff]
  exact ⟨fun h => identical_symm (hK.content ha hb h) h,
    fun h => identical_symm (hK.content hb ha h) h⟩

/-- The parts of a key are keys. -/
theorem isKey_of_mem_branches (ha : IsKey K a) {part : Value} (hpart : part ∈ a.branches) :
    IsKey K part := by
  refine ⟨hK.branches ha.1 hpart, ?_⟩
  obtain ⟨hmem, hhashable⟩ := ha
  cases a with
  | sequence mark kind items =>
      cases kind with
      | list => cases hhashable
      | tuple | named => exact allHashable_iff.mp hhashable part hpart
  | bag mark kind items =>
      obtain rfl : kind = .frozenset := of_decide_eq_true hhashable
      exact (hK.elements hmem).1 part hpart
  | tagged mark tag form => exact isHashable_of_mem_leaves_form hhashable part hpart
  | mismatch mark m => exact isHashable_of_mem_leaves hhashable part hpart
  | _ => cases hpart

end Coherent

/-! ## Comparisons of keys have an answer -/

theorem exists_both {x y : Except Fault Bool} (hx : ∃ r, x = .ok r) (hy : ∃ r, y = .ok r) :
    ∃ r, (do if ← x then y else return false) = .ok r := by
  apply exists_bind_ok hx
  intro b
  cases b with
  | true => exact hy
  | false => exact ⟨false, rfl⟩

theorem exists_unless {x y : Except Fault Bool} (hx : ∃ r, x = .ok r) (hy : ∃ r, y = .ok r) :
    ∃ r, (x >>= fun b => if (!b) = true then pure false else y) = .ok r := by
  apply exists_bind_ok hx
  intro b
  cases b with
  | true => exact hy
  | false => exact ⟨false, rfl⟩

theorem exists_orIdentical {x : Except Fault Bool} (hx : ∃ r, x = .ok r) :
    ∃ r, orIdentical a b x = .ok r := by
  unfold orIdentical
  split_ifs
  · exact ⟨true, rfl⟩
  · exact hx

theorem exists_equalItems {items items' : List Value}
    (h : ∀ x ∈ items, ∀ y ∈ items', ∃ r, equal x y = .ok r) :
    ∃ r, equalItems items items' = .ok r := by
  induction items generalizing items' with
  | nil => cases items' <;> exact ⟨_, rfl⟩
  | cons head tail ih =>
      cases items' with
      | nil => exact ⟨_, rfl⟩
      | cons head' tail' =>
          simp only [List.forall_mem_cons] at h
          exact exists_both (exists_orIdentical h.1.1) (ih fun x hx => (h.2 x hx).2)

theorem exists_equalForms {form form' : Form Value} (hform : isHashableForm form = true)
    (h : ∀ x ∈ form.leaves, ∀ y ∈ form'.leaves, ∃ r, equal x y = .ok r) :
    ∃ r, equalForms form form' = .ok r := by
  cases form with
  | optional => simp [isHashableForm] at hform
  | union alternatives =>
      cases form' with
      | union => exact exists_equalItems h
      | _ => exact ⟨_, rfl⟩
  | checker f p =>
      cases form' with
      | checker f' p' =>
          simp only [Form.leaves, List.mem_singleton, forall_eq] at h
          rw [equalForms]
          split_ifs
          · exact exists_orIdentical h
          · exact ⟨_, rfl⟩
      | _ => exact ⟨_, rfl⟩
  | array e | record e =>
      cases form' with
      | array | record =>
          simp only [Form.leaves, List.mem_singleton, forall_eq] at h
          first
          | exact exists_orIdentical h
          | exact ⟨_, rfl⟩
      | _ => exact ⟨_, rfl⟩
  | _ => cases form' <;> exact ⟨_, rfl⟩

theorem exists_equalMismatches : ∀ {m m' : Mismatch Value}, isHashableMismatch m = true →
    (∀ x ∈ m.leaves, ∀ y ∈ m'.leaves, ∃ r, equal x y = .ok r) →
    ∃ r, equalMismatches m m' = .ok r
  | .incorrectType .., m', _, h | .incorrectValue .., m', _, h => by
      cases m' with
      | incorrectType | incorrectValue =>
          simp only [Mismatch.leaves, List.forall_mem_cons] at h
          first
          | exact exists_unless (exists_orIdentical h.1.1) (exists_orIdentical h.2.1.2.1)
          | exact ⟨_, rfl⟩
      | _ => exact ⟨_, rfl⟩
  | .arrayError error index, m', hm, h => by
      cases m' with
      | arrayError error' index' =>
          exact exists_unless (@exists_equalMismatches error error' hm h) ⟨_, rfl⟩
      | _ => exact ⟨_, rfl⟩
  | .recordError error key, m', hm, h | .objectError error key, m', hm, h => by
      cases m' with
      | recordError error' key' | objectError error' key' =>
          have herror := (Bool.and_eq_true_iff.mp hm).1
          simp only [Mismatch.leaves, List.forall_mem_cons] at h
          have hinner := @exists_equalMismatches error error' herror fun x hx => (h.2 x hx).2
          first
          | exact exists_unless hinner (exists_orIdentical h.1.1)
          | exact ⟨_, rfl⟩
      | _ => exact ⟨_, rfl⟩
  | .requiredKeyMissing key, m', _, h | .illegalExtraKey key, m', _, h => by
      cases m' with
      | requiredKeyMissing | illegalExtraKey =>
          simp only [Mismatch.leaves, List.mem_singleton, forall_eq] at h
          first
          | exact exists_orIdentical h
          | exact ⟨_, rfl⟩
      | _ => exact ⟨_, rfl⟩
  | .checkerFailed reason, m', _, _ => by cases m' <;> exact ⟨_, rfl⟩
  | .unionNoMatch _, m', hm, _ => by simp [isHashableMismatch] at hm

theorem exists_anyM {α : Type} {test : α → Except Fault Bool} {items : List α}
    (h : ∀ x ∈ items, ∃ r, test x = .ok r) : ∃ r, items.anyM test = .ok r := by
  induction items with
  | nil => exact ⟨false, rfl⟩
  | cons head tail ih =>
      rw [List.forall_mem_cons] at h
      obtain ⟨r, hr⟩ := h.1
      rw [List.anyM, hr]
      cases r with
      | true => exact ⟨true, rfl⟩
      | false => exact ih h.2

theorem anyM_eq_true_iff {α : Type} {test : α → Except Fault Bool} {items : List α}
    (h : ∀ x ∈ items, ∃ r, test x = .ok r) :
    items.anyM test = .ok true ↔ ∃ x ∈ items, test x = .ok true := by
  induction items with
  | nil => simp [pure, Except.pure]
  | cons head tail ih =>
      rw [List.forall_mem_cons] at h
      obtain ⟨r, hr⟩ := h.1
      rw [List.anyM, hr]
      cases r with
      | true => simp [hr, bind, Except.bind, pure, Except.pure]
      | false =>
          simpa [hr, bind, Except.bind] using ih h.2

section

variable {items items' : List Value} (h : ∀ x ∈ items, ∀ y ∈ items', ∃ r, equal x y = .ok r)

include h

theorem exists_allFound : ∃ r, allFound items items' = .ok r := by
  induction items with
  | nil => exact ⟨true, rfl⟩
  | cons head tail ih =>
      rw [List.forall_mem_cons] at h
      apply exists_both
      · exact exists_anyM fun y hy => exists_orIdentical (h.1 y hy)
      · exact ih h.2

theorem allFound_eq_true_iff :
    allFound items items' = .ok true ↔
      ∀ x ∈ items, ∃ y ∈ items', orIdentical y x (equal x y) = .ok true := by
  induction items with
  | nil => simp [allFound]
  | cons head tail ih =>
      rw [List.forall_mem_cons] at h
      rw [allFound, both_eq_ok_true, ih h.2, List.forall_mem_cons,
        anyM_eq_true_iff fun y hy => exists_orIdentical (h.1 y hy)]

end

theorem sizeOf_lt_of_mem_leaves_form {form : Form Value} {part : Value}
    (hpart : part ∈ form.leaves) : sizeOf part < sizeOf form := by
  cases form with
  | union alternatives =>
      have hsize : sizeOf part < sizeOf alternatives := List.sizeOf_lt_of_mem hpart
      simp only [Form.union.sizeOf_spec]
      omega
  | checker | array | record =>
      obtain rfl := List.mem_singleton.mp hpart
      simp only [Form.checker.sizeOf_spec, Form.array.sizeOf_spec, Form.record.sizeOf_spec]
      omega
  | _ => cases hpart

theorem sizeOf_lt_of_mem_leaves : ∀ {m : Mismatch Value} {part : Value}, part ∈ m.leaves →
    sizeOf part < sizeOf m
  | .incorrectType expected got, part, h | .incorrectValue expected got, part, h => by
      simp only [Mismatch.incorrectType.sizeOf_spec, Mismatch.incorrectValue.sizeOf_spec]
      rcases List.mem_pair.mp h with rfl | rfl
      · omega
      · omega
  | .arrayError error index, part, h => by
      have hinner := @sizeOf_lt_of_mem_leaves error part h
      simp only [Mismatch.arrayError.sizeOf_spec]
      omega
  | .recordError error key, part, h | .objectError error key, part, h => by
      rcases List.mem_cons.mp h with rfl | hmem
      · simp only [Mismatch.recordError.sizeOf_spec, Mismatch.objectError.sizeOf_spec]
        omega
      · have hinner := @sizeOf_lt_of_mem_leaves error part hmem
        simp only [Mismatch.recordError.sizeOf_spec, Mismatch.objectError.sizeOf_spec]
        omega
  | .requiredKeyMissing key, part, h | .illegalExtraKey key, part, h => by
      obtain rfl := List.mem_singleton.mp h
      simp
  | .unionNoMatch _, _, h | .checkerFailed _, _, h => by cases h

theorem sizeOf_lt_of_mem_branches {v part : Value} (hpart : part ∈ v.branches) :
    sizeOf part < sizeOf v := by
  cases v with
  | sequence mark kind items | bag mark kind items =>
      have hsize : sizeOf part < sizeOf items := List.sizeOf_lt_of_mem hpart
      simp only [sequence.sizeOf_spec, bag.sizeOf_spec]
      omega
  | tagged mark tag form =>
      have hsize := sizeOf_lt_of_mem_leaves_form hpart
      simp only [tagged.sizeOf_spec]
      omega
  | mismatch mark m =>
      have hsize := sizeOf_lt_of_mem_leaves hpart
      simp only [mismatch.sizeOf_spec]
      omega
  | _ => cases hpart

theorem equal_frozenset (m n : Nat) (items items' : List Value) :
    equal (bag m .frozenset items) (bag n .frozenset items') =
      if items.length = items'.length then allFound items items' else .ok false := rfl

theorem exists_equal_atom {m n : Nat} {x y : Atom} (hx : (atom m x).isHashable = true)
    (hy : (atom n y).isHashable = true) : ∃ r, x.equal y = .ok r := by
  have hquiet {k : Nat} {z : Atom} {number : Number} (hz : (atom k z).isHashable = true)
      (hnumber : z.asNumber? = some number) : number.isSignaling = false := by
    cases z with
    | number => cases hnumber; simpa [isHashable] using hz
    | symbol s =>
        cases s with
        | numeric => cases hnumber; rfl
        | quantity => cases hnumber; simpa [isHashable] using hz
        | _ => cases hnumber
    | bool => cases hnumber; rfl
    | _ => cases hnumber
  rcases hequal : x.equal y with fault | r
  · obtain ⟨p, q, hp, hq, hfault⟩ := Atom.equal_eq_error_iff.mp hequal
    obtain ⟨hsignaling, -⟩ := Number.equal_eq_error_iff.mp hfault
    simp [hquiet hx hp, hquiet hy hq] at hsignaling
  · exact ⟨r, rfl⟩

/-- Two keys can always be compared. -/
theorem Coherent.exists_equal (hK : Coherent K) (ha : IsKey K a) (hb : IsKey K b) :
    ∃ r, equal a b = .ok r := by
  induction hsize : sizeOf a using Nat.strongRecOn generalizing a b with
  | _ n ih =>
      have hparts : ∀ x ∈ a.branches, ∀ y ∈ b.branches, ∃ r, equal x y = .ok r := by
        intro x hx y hy
        have hlt := sizeOf_lt_of_mem_branches hx
        exact ih (sizeOf x) (hsize ▸ hlt) (hK.isKey_of_mem_branches ha hx)
          (hK.isKey_of_mem_branches hb hy) rfl
      cases a with
      | atom m x =>
          cases b with
          | atom n y => exact exists_equal_atom ha.2 hb.2
          | buffer => cases hb.2
          | _ => exact ⟨_, rfl⟩
      | sequence m kind items =>
          cases kind with
          | list => cases ha.2
          | tuple | named =>
              cases b with
              | sequence n kind' items' =>
                  cases kind' with
                  | list => cases hb.2
                  | tuple | named => exact exists_equalItems hparts
              | _ => exact ⟨_, rfl⟩
      | bag m kind items =>
          obtain rfl : kind = .frozenset := of_decide_eq_true ha.2
          cases b with
          | bag n kind' items' =>
              obtain rfl : kind' = .frozenset := of_decide_eq_true hb.2
              rw [equal_frozenset]
              split_ifs
              · exact exists_allFound hparts
              · exact ⟨_, rfl⟩
          | _ => exact ⟨_, rfl⟩
      | tagged m tag form =>
          cases b with
          | tagged n tag' form' =>
              rw [equal]
              split_ifs
              · exact exists_equalForms ha.2 hparts
              · exact ⟨_, rfl⟩
          | _ => exact ⟨_, rfl⟩
      | mismatch m p =>
          cases b with
          | mismatch n q => exact exists_equalMismatches ha.2 hparts
          | _ => exact ⟨_, rfl⟩
      | mapping | record | buffer => cases ha.2
      | range => cases b <;> exact ⟨_, rfl⟩
      | method => cases b <;> exact ⟨_, rfl⟩
      | _ => exact ⟨_, rfl⟩

/-! ## When keys are the same -/

/-- What besides its parts the equality of a key goes by. -/
inductive Trunk where
  | tuple
  | tagged (tag : Tag) (form : Form Unit)
  | mismatch (m : Mismatch Unit)

def trunk? : Value → Option Trunk
  | sequence _ .list _ => none
  | sequence .. => some .tuple
  | tagged _ tag form => some (.tagged tag form.skeleton)
  | mismatch _ m => some (.mismatch m.skeleton)
  | _ => none

/-- Two keys are equal by what they hold, and not for being one value. -/
inductive Matches : Value → Value → Prop
  | atom {m n : Nat} {x y : Atom} {face : Atom.Face} (hx : x.face? = some face)
      (hy : y.face? = some face) : Matches (atom m x) (atom n y)
  /-- The parts are the same one by one. -/
  | compound {a b : Value} {trunk : Trunk} (ha : a.trunk? = some trunk)
      (hb : b.trunk? = some trunk) (hparts : List.Forall₂ Same a.branches b.branches) :
      Matches a b
  /-- Each element of the first set is found in the second, which has no more. -/
  | frozenset {m n : Nat} {items items' : List Value} (hlength : items.length = items'.length)
      (hfound : ∀ x ∈ items, ∃ y ∈ items', Same x y) :
      Matches (bag m .frozenset items) (bag n .frozenset items')
  | range {m n : Nat} {start stop step start' stop' step' : Int}
      (h : equalRanges start stop step start' stop' step' = true) :
      Matches (range m start stop step) (range n start' stop' step')
  | method {self self' : Value} {name : String} (h : identical self self' = true) :
      Matches (method self name) (method self' name)

theorem Coherent.found_iff (hK : Coherent K) {m n : Nat} {items items' : List Value}
    (ha : IsKey K (bag m .frozenset items)) (hb : IsKey K (bag n .frozenset items')) :
    allFound items items' = .ok true ↔ ∀ x ∈ items, ∃ y ∈ items', Same x y := by
  have hkey (x : Value) (hx : x ∈ items) : IsKey K x := hK.isKey_of_mem_branches ha hx
  have hkey' (y : Value) (hy : y ∈ items') : IsKey K y := hK.isKey_of_mem_branches hb hy
  rw [allFound_eq_true_iff fun x hx y hy => hK.exists_equal (hkey x hx) (hkey' y hy)]
  refine forall₂_congr fun x hx => exists_congr fun y => and_congr_right fun hy => ?_
  rw [Same, orIdentical, orIdentical, hK.identical_comm (hkey x hx).1 (hkey' y hy).1]

section

variable (hK : Coherent K) (ha : IsKey K a) (hb : IsKey K b)

include hK ha hb

theorem Coherent.matches_of_equal (h : equal a b = .ok true) :
    identical a b = true ∨ Matches a b := by
  cases a with
  | atom m x =>
      cases b with
      | atom n y =>
          obtain ⟨face, hx, hy⟩ := Atom.equal_eq_true_iff.mp h
          exact .inr (.atom hx hy)
      | buffer => cases hb.2
      | _ => cases h
  | sequence m kind items =>
      cases kind with
      | list => cases ha.2
      | tuple | named =>
          cases b with
          | sequence n kind' items' =>
              cases kind' with
              | list => cases hb.2
              | tuple | named => exact .inr (.compound rfl rfl (equalItems_eq_true_iff.mp h))
          | _ => exact .inl (Except.ok.inj h)
  | bag m kind items =>
      obtain rfl : kind = .frozenset := of_decide_eq_true ha.2
      cases b with
      | bag n kind' items' =>
          obtain rfl : kind' = .frozenset := of_decide_eq_true hb.2
          obtain ⟨hlength, hfound⟩ := ite_eq_ok_true.mp h
          exact .inr (.frozenset hlength ((hK.found_iff ha hb).mp hfound))
      | _ => cases h
  | tagged m tag form =>
      cases b with
      | tagged n tag' form' =>
          obtain ⟨rfl, hforms⟩ := ite_eq_ok_true.mp h
          obtain ⟨hskeleton, hparts⟩ := (equalForms_eq_true_iff ha.2).mp hforms
          exact .inr (.compound rfl (by rw [trunk?, hskeleton]) hparts)
      | _ => cases h
  | mismatch m p =>
      cases b with
      | mismatch n q =>
          obtain ⟨hskeleton, hparts⟩ := (equalMismatches_eq_true_iff ha.2).mp h
          exact .inr (.compound rfl (by rw [trunk?, hskeleton]) hparts)
      | _ => cases h
  | range =>
      cases b with
      | range => exact .inr (.range (Except.ok.inj h))
      | _ => cases h
  | method self name =>
      cases b with
      | method self' name' =>
          obtain ⟨hname, hself⟩ := Bool.and_eq_true_iff.mp (Except.ok.inj h)
          obtain rfl := of_decide_eq_true hname
          exact .inr (.method hself)
      | _ => cases h
  | mapping | record | buffer => cases ha.2
  | _ => exact .inl (Except.ok.inj h)

theorem Coherent.equal_of_matches (h : Matches a b) : equal a b = .ok true := by
  cases h with
  | atom hx hy => exact Atom.equal_eq_true_iff.mpr ⟨_, hx, hy⟩
  | compound htrunk htrunk' hparts =>
      cases a with
      | sequence m kind items =>
          cases kind with
          | list => cases htrunk
          | tuple | named =>
              cases htrunk
              cases b with
              | sequence n kind' items' =>
                  cases kind' with
                  | list => cases htrunk'
                  | tuple | named => exact equalItems_eq_true_iff.mpr hparts
              | _ => cases htrunk'
      | tagged m tag form =>
          cases htrunk
          cases b with
          | tagged n tag' form' =>
              obtain ⟨rfl, hskeleton⟩ := Trunk.tagged.inj (Option.some.inj htrunk')
              exact ite_eq_ok_true.mpr
                ⟨rfl, (equalForms_eq_true_iff ha.2).mpr ⟨hskeleton.symm, hparts⟩⟩
          | sequence n kind' items' => cases kind' <;> cases htrunk'
          | _ => cases htrunk'
      | mismatch m p =>
          cases htrunk
          cases b with
          | mismatch n q =>
              have hskeleton := Trunk.mismatch.inj (Option.some.inj htrunk')
              exact (equalMismatches_eq_true_iff ha.2).mpr ⟨hskeleton.symm, hparts⟩
          | sequence n kind' items' => cases kind' <;> cases htrunk'
          | _ => cases htrunk'
      | _ => cases htrunk
  | frozenset hlength hfound =>
      exact ite_eq_ok_true.mpr ⟨hlength, (hK.found_iff ha hb).mpr hfound⟩
  | range h => exact congrArg Except.ok h
  | method h => simp [equal, h]

/-- Two keys are the same if they are one value or match by what they hold. -/
theorem Coherent.same_iff : Same a b ↔ identical a b = true ∨ Matches a b := by
  unfold Same orIdentical
  constructor
  · intro h
    split_ifs at h with hidentical
    · exact .inl hidentical
    · exact hK.matches_of_equal ha hb h
  · rintro (hidentical | hmatches)
    · rw [if_pos hidentical]
    · split_ifs
      · rfl
      · exact hK.equal_of_matches ha hb hmatches

end

end Value

end ShapeCheck
