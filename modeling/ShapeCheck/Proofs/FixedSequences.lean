import ShapeCheck.Proofs.OptionalOutcomes
import ShapeCheck.Proofs.Uniform

/-!
# Sequences of a fixed length

A shape that is a sequence has a schema for each position.  Its check first asks the value for
all positions, and then tests the elements one after another, up to one that comes after the
last schema.  So a sequence that is too short is told by its own length, one that is too long
by the length of the shape, and an element that is rejected by its position.

Main statement: with pure predicates the check ends in exactly the ways that `SequenceEnds`
lists, and a sequence that is too short is told before any predicate is called
(`fixed_sequence_ends`).  The list has the faults of elements in it.
-/

namespace ShapeCheck

namespace Run

variable {σ α : Type} {W : World σ → Prop} {test : α → Run σ Outcome} {items : List α}
  {answer : Except Fault Outcome}

/-- A traversal stops at the first position whose item does not pass. -/
theorem firstEnds_iff_position (hanswer : answer ≠ .ok none) :
    FirstEnds W test items answer ↔ ∃ (i : Nat) (item : α), items[i]? = some item ∧
      Settles W (test item) answer ∧
        ∀ j < i, ∀ earlier, items[j]? = some earlier → Settles W (test earlier) (.ok none) := by
  constructor
  · rintro (- | @⟨before, after, item, _, rfl, hbefore, hitem, -⟩)
    · exact absurd rfl hanswer
    · refine ⟨before.length, item, by simp, hitem, ?_⟩
      intro j hj earlier hearlier
      rw [List.getElem?_append_left hj] at hearlier
      exact hbefore earlier (List.mem_of_getElem? hearlier)
  · rintro ⟨i, item, hi, hitem, hbefore⟩
    obtain ⟨hlt, rfl⟩ := List.getElem?_eq_some_iff.mp hi
    have hsplit : items = items.take i ++ items[i] :: items.drop (i + 1) := by
      rw [← List.drop_eq_getElem_cons, List.take_append_drop]
    refine .stopped hsplit ?_ hitem hanswer
    intro earlier hearlier
    obtain ⟨j, hj⟩ := List.getElem?_of_mem hearlier
    rw [List.getElem?_take] at hj
    split at hj
    next hlt => exact hbefore j hlt earlier hj
    next => cases hj

end Run

namespace Value

variable {m i : Nat} {k : SequenceKind} {schemas items : List Value} {schema key : Value}
  {entry : Value × Value}

theorem members_getElem? (m : Nat) (k : SequenceKind) (items : List Value) (i : Nat) :
    (sequence m k items).listing.members[i]? = items[i]?.map fun item => (int i, item) := by
  rw [Check.listing_sequence, List.getElem?_map, List.getElem?_zipIdx]
  cases items[i]? <;> simp

theorem sequence_hasKey (m : Nat) (k : SequenceKind) (items : List Value) (i : Nat) :
    (sequence m k items).hasKey (int i) = .ok (decide (i < items.length)) := by
  have hposition : (int i).position? = some (i : Int) := rfl
  simp [hasKey, hposition]

theorem sequence_holds_iff :
    (sequence m k schemas).Holds (int i) schema ↔ schemas[i]? = some schema := by
  rw [holds_sequence_iff]
  constructor
  · rintro ⟨j, hposition, hschema⟩
    obtain rfl : i = j := Int.ofNat_inj.mp (Option.some.inj hposition)
    exact hschema
  · exact fun hschema => ⟨i, rfl, hschema⟩

/-- A sequence has nothing under the wildcard. -/
theorem sequence_not_covers : ¬ (sequence m k schemas).Covers key schema := by
  rintro ⟨-, hwildcard⟩
  obtain ⟨j, hposition, -⟩ := holds_sequence_iff.mp hwildcard
  cases hposition

theorem sequence_assigns_iff :
    (sequence m k schemas).Assigns (int i) schema ↔ schemas[i]? = some schema := by
  rw [Assigns, sequence_holds_iff]
  exact or_iff_left sequence_not_covers

theorem sequence_leaves_iff : (sequence m k schemas).Leaves (int i) ↔ schemas[i]? = none := by
  have hwildcard : (sequence m k schemas).hasKey wildcard = .ok false := rfl
  simp [Leaves, hwildcard, sequence_hasKey]

end Value

namespace Check

open Run Value

variable {σ : Type} {host : Host σ} {W : World σ → Prop} {m m' i : Nat} {k k' : SequenceKind}
  {schemas items : List Value} {item : Value} {w : World σ} {answer : Except Fault Outcome}
  {problem : Problem} {fault : Fault}

/-! ## The positions that a sequence has to have -/

theorem required_of_long_enough (hlength : schemas.length ≤ items.length) :
    (required (.sequence m k schemas) (.sequence m' k' items)).startedIn w = (.ok none, w) := by
  refine required_of_hasDeclared ?_ rfl w
  intro entry hentry _
  obtain ⟨i, hi, hkey⟩ := exists_position hentry
  rw [hkey, sequence_hasKey, decide_eq_true (Nat.lt_of_lt_of_le hi hlength)]

/-- Asking a sequence for a position comes down to its length. -/
theorem present_position {schema : Value} :
    Settles W (present (.sequence m' k' items) (.int i, schema))
      (.ok (if i < items.length then none else some (.requiredKeyMissing (.int i)))) := by
  have hends : Settles W (present (.sequence m' k' items) (.int i, schema)) _ :=
    present_settles rfl
  rw [sequence_hasKey] at hends
  simpa [Except.map, Outcome.ofBool] using hends

/-- The first position that a sequence lacks is its own length. -/
theorem required_of_too_short (hlength : items.length < schemas.length) :
    (required (.sequence m k schemas) (.sequence m' k' items)).startedIn w =
      (.ok (some (.requiredKeyMissing (.int items.length))), w) := by
  have hfirst : FirstEnds (· = w) (present (.sequence m' k' items))
      (Value.sequence m k schemas).listing.members
      (.ok (some (.requiredKeyMissing (.int items.length)))) := by
    refine (firstEnds_iff_position (mismatch_ne_pass _)).mpr
      ⟨items.length, (.int items.length, schemas[items.length]), ?_, ?_, ?_⟩
    · rw [members_getElem?, List.getElem?_eq_getElem hlength]
      rfl
    · have hmissing : Settles (· = w) (present (.sequence m' k' items)
          (.int items.length, schemas[items.length])) _ := present_position
      rwa [if_neg (Nat.lt_irrefl _)] at hmissing
    · intro j hj earlier hearlier
      rw [members_getElem?] at hearlier
      obtain ⟨schema, -, rfl⟩ := Option.map_eq_some_iff.mp hearlier
      have hthere : Settles (· = w) (present (.sequence m' k' items) (.int j, schema)) _ :=
        present_position
      rwa [if_pos hj] at hthere
  have hends := (settles_eachMember_iff (W := (· = w)) (w := w) rfl
    fun entry _ => present_settled entry).mpr (.inl ⟨mismatch_ne_pass _, hfirst⟩)
  obtain ⟨w', rfl, hrun⟩ := hends w rfl
  exact hrun

/-! ## The test of one element -/

section

variable (hw : W w) (hsettled : ∀ schema, (Value.sequence m k schemas).Assigns (.int i) schema →
  Settled W (check host schema item))

include hw hsettled

theorem position_settles_pass_iff :
    Settles W (member (check host) (.sequence m k schemas) true (.int i, item)) (.ok none) ↔
      ∃ schema, schemas[i]? = some schema ∧ Accepts host W schema item := by
  rw [member_settles_pass_iff hw hsettled]
  constructor
  · rintro ⟨⟨hkey, haccepts⟩ | hkey, hstrict⟩
    · exact ⟨_, sequence_assigns_iff.mp hkey, haccepts⟩
    · obtain ⟨schema, hassigns⟩ := hstrict rfl
      exact absurd hassigns hkey.not_assigns
  · rintro ⟨schema, hschema, haccepts⟩
    have hkey : (sequence m k schemas).Assigns (int i) schema := sequence_assigns_iff.mpr hschema
    exact ⟨.accepted hkey haccepts, fun _ => ⟨schema, hkey⟩⟩

theorem position_settles_mismatch_iff :
    Settles W (member (check host) (.sequence m k schemas) true (.int i, item))
        (.ok (some problem)) ↔
      (∃ schema inner, schemas[i]? = some schema ∧ Rejects host W schema item inner ∧
        problem = .objectError inner (.int i)) ∨
      schemas[i]? = none ∧ problem = .illegalExtraKey (.int i) := by
  rw [member_settles_mismatch_iff hw hsettled]
  constructor
  · rintro (⟨⟨hkey⟩ | ⟨hkey, -⟩, hrejects⟩ | ⟨hkey, -⟩)
    · exact .inl ⟨_, _, sequence_holds_iff.mp hkey, hrejects, rfl⟩
    · exact absurd hkey sequence_not_covers
    · exact .inr ⟨sequence_leaves_iff.mp hkey, rfl⟩
  · rintro (⟨schema, inner, hschema, hrejects, rfl⟩ | ⟨hnone, rfl⟩)
    · exact .item (.held (sequence_holds_iff.mpr hschema)) hrejects
    · exact .extra (sequence_leaves_iff.mpr hnone) rfl

theorem position_settles_error_iff :
    Settles W (member (check host) (.sequence m k schemas) true (.int i, item)) (.error fault) ↔
      ∃ schema, schemas[i]? = some schema ∧ Settles W (check host schema item) (.error fault) := by
  rw [member_settles_error_iff hw hsettled]
  constructor
  · rintro (⟨hkey, hfails⟩ | ⟨hkey, -, -⟩ | hkey)
    · exact ⟨_, sequence_assigns_iff.mp hkey, hfails⟩
    · exact absurd hkey sequence_not_covers
    · rw [sequence_hasKey] at hkey
      cases hkey
  · rintro ⟨schema, hschema, hfails⟩
    exact .item (sequence_assigns_iff.mpr hschema) hfails

end

/-! ## The ends of the check -/

/-- The elements before a position are accepted by the schemas at theirs. -/
def AcceptsBefore (host : Host σ) (W : World σ → Prop) (schemas items : List Value) (i : Nat) :
    Prop :=
  ∀ j < i, ∃ schema item, schemas[j]? = some schema ∧ items[j]? = some item ∧
    Accepts host W schema item

/-- The ways in which the check of a sequence against a shape ends that has a schema for each
position. -/
inductive SequenceEnds (host : Host σ) (W : World σ → Prop) (schemas items : List Value) :
    Except Fault Outcome → Prop
  | missing (hlength : items.length < schemas.length) :
      SequenceEnds host W schemas items (.ok (some (.requiredKeyMissing (.int items.length))))
  /-- The first element that is not accepted is rejected. -/
  | rejected {i : Nat} {schema item : Value} {inner : Problem}
      (hlength : schemas.length ≤ items.length) (hbefore : AcceptsBefore host W schemas items i)
      (hschema : schemas[i]? = some schema) (hitem : items[i]? = some item)
      (hrejects : Rejects host W schema item inner) :
      SequenceEnds host W schemas items (.ok (some (.objectError inner (.int i))))
  /-- The first element that is not accepted has a check that fails. -/
  | fails {i : Nat} {schema item : Value} {fault : Fault}
      (hlength : schemas.length ≤ items.length) (hbefore : AcceptsBefore host W schemas items i)
      (hschema : schemas[i]? = some schema) (hitem : items[i]? = some item)
      (hfails : Settles W (check host schema item) (.error fault)) :
      SequenceEnds host W schemas items (.error fault)
  | extra (hlength : schemas.length < items.length)
      (haccepts : AcceptsBefore host W schemas items schemas.length) :
      SequenceEnds host W schemas items (.ok (some (.illegalExtraKey (.int schemas.length))))
  | accepted (haccepts : List.Forall₂ (Accepts host W) schemas items) :
      SequenceEnds host W schemas items (.ok none)

theorem forall₂_accepts_iff :
    List.Forall₂ (Accepts host W) schemas items ↔
      schemas.length = items.length ∧ AcceptsBefore host W schemas items schemas.length := by
  rw [List.forall₂_iff_get]
  refine and_congr_right fun hlength => ?_
  constructor
  · intro h j hj
    have hj' : j < items.length := hlength ▸ hj
    exact ⟨schemas[j], items[j], List.getElem?_eq_getElem hj, List.getElem?_eq_getElem hj',
      h j hj hj'⟩
  · intro h j hj hj'
    obtain ⟨schema, item, hschema, hitem, haccepts⟩ := h j hj
    rw [List.getElem?_eq_getElem hj] at hschema
    rw [List.getElem?_eq_getElem hj'] at hitem
    obtain rfl := Option.some.inj hschema
    obtain rfl := Option.some.inj hitem
    exact haccepts

section

variable (hw : W w)
  (hsettled : MembersSettled host W (.sequence m k schemas) (.sequence m' k' items))

include hsettled in
theorem settled_at {i : Nat} (hitem : items[i]? = some item) :
    ∀ schema, (Value.sequence m k schemas).Assigns (.int i) schema →
      Settled W (check host schema item) := by
  have hentry : (Value.int i, item) ∈ (Value.sequence m' k' items).listing.members := by
    apply List.mem_of_getElem?
    rw [members_getElem?, hitem]
    rfl
  exact hsettled _ hentry

include hw hsettled

/-- The elements before a position pass exactly if they are accepted by their schemas. -/
theorem passes_before_iff (hi : i ≤ items.length) :
    (∀ j < i, ∀ entry, (Value.sequence m' k' items).listing.members[j]? = some entry →
      Settles W (member (check host) (.sequence m k schemas) true entry) (.ok none)) ↔
      AcceptsBefore host W schemas items i := by
  constructor
  · intro h j hj
    have hj' : j < items.length := Nat.lt_of_lt_of_le hj hi
    have hitem : items[j]? = some items[j] := List.getElem?_eq_getElem hj'
    have hpasses := h j hj (.int j, items[j]) (by rw [members_getElem?, hitem]; rfl)
    obtain ⟨schema, hschema, haccepts⟩ :=
      (position_settles_pass_iff hw (settled_at hsettled hitem)).mp hpasses
    exact ⟨schema, items[j], hschema, hitem, haccepts⟩
  · intro h j hj entry hentry
    obtain ⟨schema, item, hschema, hitem, haccepts⟩ := h j hj
    rw [members_getElem?, hitem] at hentry
    obtain rfl := Option.some.inj hentry
    exact (position_settles_pass_iff hw (settled_at hsettled hitem)).mpr
      ⟨schema, hschema, haccepts⟩

theorem strict_settles_iff :
    Settles W (members (check host) (.sequence m k schemas) (.sequence m' k' items) true) answer ↔
      answer ≠ .ok none ∧ FirstEnds W (member (check host) (.sequence m k schemas) true)
          (Value.sequence m' k' items).listing.members answer ∨
        (∀ entry ∈ (Value.sequence m' k' items).listing.members,
            Settles W (member (check host) (.sequence m k schemas) true entry) (.ok none)) ∧
          answer = .ok none :=
  settles_eachMember_iff hw fun entry hentry => member_settled (hsettled entry hentry)

/-- The pass over the elements ends at one that does not pass after elements that do. -/
theorem strict_settles_of_position (hitem : items[i]? = some item)
    (hbefore : AcceptsBefore host W schemas items i)
    (hends : Settles W (member (check host) (.sequence m k schemas) true (.int i, item)) answer)
    (hanswer : answer ≠ .ok none) :
    Settles W (members (check host) (.sequence m k schemas) (.sequence m' k' items) true)
      answer := by
  have hi : i ≤ items.length := (List.getElem?_eq_some_iff.mp hitem).1.le
  refine (strict_settles_iff hw hsettled).mpr
    (.inl ⟨hanswer, (firstEnds_iff_position hanswer).mpr ⟨i, (.int i, item), ?_, hends, ?_⟩⟩)
  · rw [members_getElem?, hitem]
    rfl
  · exact (passes_before_iff hw hsettled hi).mpr hbefore

theorem SequenceEnds.of_strict (hlength : schemas.length ≤ items.length)
    (h : Settles W (members (check host) (.sequence m k schemas) (.sequence m' k' items) true)
      answer) : SequenceEnds host W schemas items answer := by
  rcases (strict_settles_iff hw hsettled).mp h with ⟨hanswer, hfirst⟩ | ⟨hall, rfl⟩
  · obtain ⟨i, entry, hentry, hends, hpasses⟩ := (firstEnds_iff_position hanswer).mp hfirst
    rw [members_getElem?] at hentry
    obtain ⟨item, hitem, rfl⟩ := Option.map_eq_some_iff.mp hentry
    have hi : i < items.length := (List.getElem?_eq_some_iff.mp hitem).1
    have hbefore := (passes_before_iff hw hsettled hi.le).mp hpasses
    have hat := settled_at hsettled hitem
    rcases answer with fault | _ | problem
    · obtain ⟨schema, hschema, hfails⟩ := (position_settles_error_iff hw hat).mp hends
      exact .fails hlength hbefore hschema hitem hfails
    · exact absurd rfl hanswer
    · rcases (position_settles_mismatch_iff hw hat).mp hends with
        ⟨schema, inner, hschema, hrejects, rfl⟩ | ⟨hnone, rfl⟩
      · exact .rejected hlength hbefore hschema hitem hrejects
      · -- An earlier position without a schema would not have passed.
        have hle : schemas.length ≤ i := List.getElem?_eq_none_iff.mp hnone
        obtain rfl : i = schemas.length := by
          by_contra hne
          obtain ⟨schema, _, hschema, -, -⟩ := hbefore schemas.length (by omega)
          simp at hschema
        exact .extra hi hbefore
  · have hpasses : AcceptsBefore host W schemas items items.length :=
      (passes_before_iff hw hsettled (Nat.le_refl _)).mp
        fun j _ entry hentry => hall entry (List.mem_of_getElem? hentry)
    have heq : schemas.length = items.length := by
      by_contra hne
      obtain ⟨schema, _, hschema, -, -⟩ := hpasses schemas.length (by omega)
      simp at hschema
    exact .accepted (forall₂_accepts_iff.mpr ⟨heq, heq ▸ hpasses⟩)

theorem SequenceEnds.strict_settles (hlength : schemas.length ≤ items.length)
    (h : SequenceEnds host W schemas items answer) :
    Settles W (members (check host) (.sequence m k schemas) (.sequence m' k' items) true)
      answer := by
  cases h with
  | missing hshort => omega
  | rejected _ hbefore hschema hitem hrejects =>
      refine strict_settles_of_position hw hsettled hitem hbefore ?_ (mismatch_ne_pass _)
      exact (position_settles_mismatch_iff hw (settled_at hsettled hitem)).mpr
        (.inl ⟨_, _, hschema, hrejects, rfl⟩)
  | fails _ hbefore hschema hitem hfails =>
      refine strict_settles_of_position hw hsettled hitem hbefore ?_ (error_ne_pass _)
      exact (position_settles_error_iff hw (settled_at hsettled hitem)).mpr ⟨_, hschema, hfails⟩
  | extra hlong haccepts =>
      have hitem : items[schemas.length]? = some items[schemas.length] :=
        List.getElem?_eq_getElem hlong
      refine strict_settles_of_position hw hsettled hitem haccepts ?_ (mismatch_ne_pass _)
      exact (position_settles_mismatch_iff hw (settled_at hsettled hitem)).mpr
        (.inr ⟨by simp, rfl⟩)
  | accepted haccepts =>
      obtain ⟨heq, hbefore⟩ := forall₂_accepts_iff.mp haccepts
      refine (strict_settles_iff hw hsettled).mpr (.inr ⟨?_, rfl⟩)
      intro entry hentry
      obtain ⟨j, hj⟩ := List.getElem?_of_mem hentry
      have hlt : j < schemas.length := by
        rw [members_getElem?] at hj
        obtain ⟨item, hitem, -⟩ := Option.map_eq_some_iff.mp hj
        exact heq ▸ (List.getElem?_eq_some_iff.mp hitem).1
      exact (passes_before_iff hw hsettled heq.le).mpr hbefore j hlt entry hj

end

theorem SequenceEnds.eq_missing (hlength : items.length < schemas.length)
    (h : SequenceEnds host W schemas items answer) :
    answer = .ok (some (.requiredKeyMissing (.int items.length))) := by
  cases h with
  | missing => rfl
  | rejected hle | fails hle => omega
  | extra hlong => omega
  | accepted haccepts =>
      have heq := haccepts.length_eq
      omega

/-- A sequence that is long enough ends as the pass over its elements does. -/
theorem exactShape_settles_iff (hw : W w)
    (hsettled : MembersSettled host W (.sequence m k schemas) (.sequence m' k' items))
    (hlength : schemas.length ≤ items.length) :
    Settles W (exactShape (check host) (.sequence m k schemas) (.sequence m' k' items)) answer ↔
      SequenceEnds host W schemas items answer := by
  have hrequired : Settles W (required (.sequence m k schemas) (.sequence m' k' items))
      (.ok none) := fun w₁ hw₁ => ⟨w₁, hw₁, required_of_long_enough hlength⟩
  refine (settles_bind_mismatch_iff hw required_settled (members_settled hsettled)).trans ?_
  constructor
  · rintro (⟨hanswer, hends⟩ | ⟨-, hends⟩)
    · exact absurd (hends.unique hw hrequired) hanswer
    · exact .of_strict hw hsettled hlength hends
  · exact fun h => .inr ⟨hrequired, h.strict_settles hw hsettled hlength⟩

/-- The check of a sequence against one schema for each position ends as the lengths and the
elements tell.  A sequence that is too short is told so before anything is asked. -/
theorem fixed_sequence_ends (host : Host σ) (m m' : Nat) (k k' : SequenceKind)
    (schemas items : List Value) :
    (∀ w, items.length < schemas.length →
      (check host (.sequence m k schemas) (.sequence m' k' items)).startedIn w =
        (.ok (some (.requiredKeyMissing (.int items.length))), w)) ∧
    ∀ (W : World σ → Prop) (w : World σ), W w →
      Pure host W (.sequence m k schemas) (.sequence m' k' items) →
      (∀ answer, ((check host (.sequence m k schemas) (.sequence m' k' items)).startedIn w).1 =
          answer ↔ SequenceEnds host W schemas items answer) ∧
        (((check host (.sequence m k schemas) (.sequence m' k' items)).startedIn w).1 = .ok none ↔
          List.Forall₂ (Accepts host W) schemas items) := by
  have hshape : check host (.sequence m k schemas) (.sequence m' k' items) =
      exactShape (check host) (.sequence m k schemas) (.sequence m' k' items) :=
    check_of_shape rfl rfl
  have hshort : ∀ w, items.length < schemas.length →
      (check host (.sequence m k schemas) (.sequence m' k' items)).startedIn w =
        (.ok (some (.requiredKeyMissing (.int items.length))), w) := by
    intro w hlength
    rw [hshape, exactShape_eq_iff (mismatch_ne_pass _)]
    exact .inl (required_of_too_short hlength)
  refine ⟨hshort, fun W w hw hpure => ?_⟩
  have hends (answer : Except Fault Outcome) :
      ((check host (.sequence m k schemas) (.sequence m' k' items)).startedIn w).1 = answer ↔
        SequenceEnds host W schemas items answer := by
    rcases Nat.lt_or_ge items.length schemas.length with hlength | hlength
    · rw [hshort w hlength]
      constructor
      · rintro rfl
        exact .missing hlength
      · exact fun h => (h.eq_missing hlength).symm
    · have hkeyed : Keyed (.sequence m k schemas) (.sequence m' k' items) _ _ := .shape rfl rfl
      rw [← (check_settled hpure).settles_iff hw, hshape]
      exact exactShape_settles_iff hw (hkeyed.settled hpure) hlength
  refine ⟨hends, (hends _).trans ⟨?_, .accepted⟩⟩
  intro h
  cases h with
  | accepted haccepts => exact haccepts

/-- A number and a text. -/
def numberThenText : List Value := [Schema.ofFamily .number, Schema.ofFamily .string]

/-- A pair whose second element is no text is told the second position, and a sequence of one
element is told that this position is missing. -/
theorem fixed_sequence_ends_pair :
    (check agreeable (.tuple numberThenText) (.list [.int 1])).startedIn calm =
        (.ok (some (.requiredKeyMissing (.int 1))), calm) ∧
      SequenceEnds agreeable (fun w => w.cached = some .standard) numberThenText [.int 1, .int 2]
        (.ok (some (.objectError (.incorrectType (Schema.ofFamily .string) (.int 2)) (.int 1)))) :=
  ⟨(fixed_sequence_ends agreeable 0 0 .tuple .list numberThenText [.int 1]).1 calm (by decide),
    (((fixed_sequence_ends agreeable 0 0 .tuple .list numberThenText [.int 1, .int 2]).2
      (fun w => w.cached = some .standard) calm rfl (agreeable_pure _ _)).1 _).mp rfl⟩

/-- An element that is rejected need not be told: where an earlier one refuses to be compared,
so that it is not rejected, the check fails instead. -/
theorem rejected_element_untold :
    Pure agreeable (fun w => w.cached = some .standard)
        (.list [signaling, Schema.ofFamily .string]) (.list [signaling, .int 1]) ∧
      (∀ problem, ¬ Rejects agreeable (fun w => w.cached = some .standard) signaling signaling
        problem) ∧
      Rejects agreeable (fun w => w.cached = some .standard) (Schema.ofFamily .string) (.int 1)
        (.incorrectType (Schema.ofFamily .string) (.int 1)) ∧
      ((check agreeable (.list [signaling, Schema.ofFamily .string])
        (.list [signaling, .int 1])).startedIn calm).1 = .error .invalidDecimal := by
  refine ⟨agreeable_pure _ _, ?_, fun w hw => ⟨w, hw, rfl⟩, rfl⟩
  intro problem hrejects
  obtain ⟨w', -, hrun⟩ := hrejects calm rfl
  cases hrun

end Check

end ShapeCheck
