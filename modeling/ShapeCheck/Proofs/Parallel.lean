import ShapeCheck.Proofs.Purity

/-!
# Schemas that agree

Two schemas agree if they accept the same values and fail on the same values.  What they
say about a value that they reject may differ, and so may their faults.

Agreement is carried through every way of making a schema out of schemas: if the parts of
two schemas agree, both checks come to the same verdicts in the same order, and so end
alike.  Failing has to be part of the comparison.  A union goes on after an alternative
that rejects, but not after one that fails.
-/

namespace ShapeCheck

namespace Run

variable {σ α β γ δ : Type} {W : World σ → Prop}

/-- Two runs end alike, each in one way: both pass, both come to a mismatch, or both fail. -/
inductive Parallel (W : World σ → Prop) (run : Run σ (Option α)) (run' : Run σ (Option β)) : Prop
  | passed (hrun : Settles W run (.ok none)) (hrun' : Settles W run' (.ok none))
  | rejected {a : α} {b : β} (hrun : Settles W run (.ok (some a)))
      (hrun' : Settles W run' (.ok (some b)))
  | failed {fault fault' : Fault} (hrun : Settles W run (.error fault))
      (hrun' : Settles W run' (.error fault'))

/-- A run with two answers is never started. -/
theorem Settles.of_conflict {run : Run σ α} {run' : Run σ β} {a b : Except Fault α}
    {c : Except Fault β} (ha : Settles W run a) (hb : Settles W run b) (hne : a ≠ b) :
    Settles W run' c :=
  fun _ hw => absurd (ha.unique hw hb) hne

namespace Parallel

theorem pass : Parallel W (pure none : Run σ (Option α)) (pure none : Run σ (Option β)) :=
  .passed (settles_pure _) (settles_pure _)

theorem reject (a : α) (b : β) : Parallel W (pure (some a) : Run σ _) (pure (some b) : Run σ _) :=
  .rejected (settles_pure _) (settles_pure _)

/-- A settled run ends like itself. -/
theorem refl {run : Run σ (Option α)} (h : Settled W run) : Parallel W run run := by
  obtain ⟨fault | _ | a, hrun⟩ := h
  · exact .failed hrun hrun
  · exact .passed hrun hrun
  · exact .rejected hrun hrun

/-- Runs that go on alike from their answers end alike. -/
theorem bind_settles {run : Run σ α} {run' : Run σ β} {a : α} {b : β}
    {next : α → Run σ (Option γ)} {next' : β → Run σ (Option δ)} (hrun : Settles W run (.ok a))
    (hrun' : Settles W run' (.ok b)) (h : Parallel W (next a) (next' b)) :
    Parallel W (run >>= next) (run' >>= next') := by
  cases h with
  | passed hnext hnext' => exact .passed (hrun.bind_ok hnext) (hrun'.bind_ok hnext')
  | rejected hnext hnext' => exact .rejected (hrun.bind_ok hnext) (hrun'.bind_ok hnext')
  | failed hnext hnext' => exact .failed (hrun.bind_ok hnext) (hrun'.bind_ok hnext')

/-- Runs that end alike and go on alike end alike. -/
theorem bind {run : Run σ (Option α)} {run' : Run σ (Option β)}
    {next : Option α → Run σ (Option γ)} {next' : Option β → Run σ (Option δ)}
    (h : Parallel W run run') (hpass : Parallel W (next none) (next' none))
    (hreject : ∀ a b, Parallel W (next (some a)) (next' (some b))) :
    Parallel W (run >>= next) (run' >>= next') := by
  cases h with
  | failed hrun hrun' => exact .failed hrun.bind_error hrun'.bind_error
  | passed hrun hrun' => exact bind_settles hrun hrun' hpass
  | @rejected a b hrun hrun' => exact bind_settles hrun hrun' (hreject a b)

/-- How a mismatch is told makes no difference. -/
theorem map {run : Run σ (Option α)} {run' : Run σ (Option β)} (h : Parallel W run run')
    (f : α → γ) (g : β → δ) :
    Parallel W (run >>= fun outcome => pure (outcome.map f))
      (run' >>= fun outcome => pure (outcome.map g)) :=
  h.bind pass fun a b => reject (f a) (g b)

theorem bind_mismatch {run run' rest rest' : Run σ Outcome} (h : Parallel W run run')
    (hrest : Parallel W rest rest') :
    Parallel W
      (run >>= fun outcome =>
        match outcome with
        | some problem => pure (some problem)
        | none => rest)
      (run' >>= fun outcome =>
        match outcome with
        | some problem => pure (some problem)
        | none => rest') :=
  h.bind hrest fun problem problem' => reject problem problem'

theorem firstMismatch {test test' : α → Run σ Outcome} {items : List α}
    (h : ∀ item ∈ items, Parallel W (test item) (test' item)) :
    Parallel W (Run.firstMismatch test items) (Run.firstMismatch test' items) := by
  induction items with
  | nil => exact pass
  | cons head tail ih =>
      apply bind_mismatch (h head List.mem_cons_self)
      exact ih fun item hitem => h item (List.mem_cons_of_mem _ hitem)

theorem eachMember {listing : Listing} {test test' : Value × Value → Run σ Outcome}
    (h : ∀ entry ∈ listing.members, Parallel W (test entry) (test' entry)) :
    Parallel W (Run.eachMember listing test) (Run.eachMember listing test') := by
  apply bind_mismatch (firstMismatch h)
  cases listing.fault with
  | none => exact pass
  | some fault => exact .failed (settles_throw fault) (settles_throw fault)

/-- Alternatives that end alike one by one end alike together. -/
theorem rejections {test : α → Run σ Outcome} {test' : β → Run σ Outcome} {items : List α}
    {items' : List β} (h : List.Forall₂ (fun a b => Parallel W (test a) (test' b)) items items') :
    Parallel W (Run.rejections test items) (Run.rejections test' items') := by
  induction h with
  | nil => exact reject [] []
  | cons hhead htail ih =>
      rw [rejections_cons, rejections_cons]
      refine hhead.bind ?_ ?_
      · exact pass
      intro problem problem'
      exact ih.map (problem :: ·) (problem' :: ·)

theorem symm {run : Run σ (Option α)} {run' : Run σ (Option β)} (h : Parallel W run run') :
    Parallel W run' run := by
  cases h with
  | passed hrun hrun' => exact .passed hrun' hrun
  | rejected hrun hrun' => exact .rejected hrun' hrun
  | failed hrun hrun' => exact .failed hrun' hrun

theorem settled {run : Run σ (Option α)} {run' : Run σ (Option β)} (h : Parallel W run run') :
    Settled W run := by
  cases h with
  | passed hrun | rejected hrun | failed hrun => exact ⟨_, hrun⟩

theorem passes {run : Run σ (Option α)} {run' : Run σ (Option β)} (h : Parallel W run run')
    (hpass : Settles W run (.ok none)) : Settles W run' (.ok none) := by
  cases h with
  | passed _ hrun' => exact hrun'
  | rejected hrun => exact hpass.of_conflict hrun nofun
  | failed hrun => exact hpass.of_conflict hrun nofun

theorem fails {run : Run σ (Option α)} {run' : Run σ (Option β)} (h : Parallel W run run')
    {fault : Fault} (hfails : Settles W run (.error fault)) :
    ∃ fault', Settles W run' (.error fault') := by
  cases h with
  | passed hrun => exact ⟨fault, hfails.of_conflict hrun nofun⟩
  | rejected hrun => exact ⟨fault, hfails.of_conflict hrun nofun⟩
  | failed _ hrun' => exact ⟨_, hrun'⟩

end Parallel

end Run

namespace Check

open Run

variable {σ : Type} {host : Host σ} {W : World σ → Prop} {d d' v schema schema' : Value}

/-- A check fails, in all surroundings of `W`. -/
def Fails (host : Host σ) (W : World σ → Prop) (d v : Value) : Prop :=
  ∃ fault, Settles W (check host d v) (.error fault)

/-- Every check against a schema gives one answer. -/
def Steady (host : Host σ) (W : World σ → Prop) (d : Value) : Prop :=
  ∀ v, Settled W (check host d v)

/-- Two schemas accept the same values and fail on the same values. -/
structure Agree (host : Host σ) (W : World σ → Prop) (d d' : Value) : Prop where
  steady : Steady host W d
  steady' : Steady host W d'
  accepts (v : Value) : Accepts host W d v ↔ Accepts host W d' v
  fails (v : Value) : Fails host W d v ↔ Fails host W d' v

/-- Schemas agree exactly if all their checks end alike. -/
theorem agree_iff :
    Agree host W d d' ↔ ∀ v, Parallel W (check host d v) (check host d' v) := by
  constructor
  · intro h v
    obtain ⟨fault | _ | problem, hrun⟩ := h.steady v
    · obtain ⟨fault', hrun'⟩ := (h.fails v).mp ⟨fault, hrun⟩
      exact .failed hrun hrun'
    · exact .passed hrun ((h.accepts v).mp hrun)
    · obtain ⟨fault' | _ | problem', hrun'⟩ := h.steady' v
      · obtain ⟨fault, hrun⟩ := (h.fails v).mpr ⟨fault', hrun'⟩
        exact .failed hrun hrun'
      · exact .passed ((h.accepts v).mpr hrun') hrun'
      · exact .rejected hrun hrun'
  · intro h
    refine ⟨fun v => (h v).settled, fun v => (h v).symm.settled, fun v => ?_, fun v => ?_⟩
    · exact ⟨(h v).passes, (h v).symm.passes⟩
    · constructor
      · rintro ⟨fault, hfails⟩
        exact (h v).fails hfails
      · rintro ⟨fault, hfails⟩
        exact (h v).symm.fails hfails

theorem Agree.parallel (h : Agree host W d d') (v : Value) :
    Parallel W (check host d v) (check host d' v) :=
  agree_iff.mp h v

theorem Steady.agree (h : Steady host W d) : Agree host W d d :=
  ⟨h, h, fun _ => Iff.rfl, fun _ => Iff.rfl⟩

/-! ## Schemas that are made of agreeing schemas -/

theorem Agree.array (h : Agree host W schema schema') (hd : d.demand = .array schema)
    (hd' : d'.demand = .array schema') : Agree host W d d' := by
  apply agree_iff.mpr
  intro v
  rw [check_eq_meet, check_eq_meet, hd, hd']
  cases v with
  | sequence mark kind items =>
      apply Parallel.firstMismatch
      intro entry _
      exact (h.parallel entry.1).map _ _
  | _ => exact .reject _ _

theorem Agree.record (h : Agree host W schema schema') (hd : d.demand = .record schema)
    (hd' : d'.demand = .record schema') : Agree host W d d' := by
  apply agree_iff.mpr
  intro v
  rw [check_eq_meet, check_eq_meet, hd, hd', meet, meet]
  by_cases hv : v.isObject = true
  · rw [if_pos hv, if_pos hv]
    apply Parallel.eachMember
    intro entry _
    exact (h.parallel entry.2).map _ _
  · rw [if_neg hv, if_neg hv]
    exact .reject _ _

theorem Agree.union {schemas schemas' : List Value}
    (h : List.Forall₂ (Agree host W) schemas schemas') (hd : d.demand = .union schemas)
    (hd' : d'.demand = .union schemas') : Agree host W d d' := by
  apply agree_iff.mpr
  intro v
  rw [check_eq_meet, check_eq_meet, hd, hd']
  apply Parallel.map
  apply Parallel.rejections
  exact h.imp fun _ _ hagree => hagree.parallel v

/-- Two shapes have agreeing schemas under the same keys. -/
structure Matching (host : Host σ) (W : World σ → Prop) (shape shape' : Value) : Prop where
  hasKey (key : Value) : shape.hasKey key = shape'.hasKey key
  holds {key schema schema' : Value} : shape.Holds key schema → shape'.Holds key schema' →
    Agree host W schema schema'
  keys : List.Forall₂ (fun e e' => e.1 = e'.1) shape.listing.members shape'.listing.members
  fault : shape.listing.fault = shape'.listing.fault

theorem Matching.exists_holds {shape shape' key : Value} (h : Matching host W shape shape')
    (hholds : shape.Holds key schema) :
    ∃ schema', shape'.Holds key schema' ∧ Agree host W schema schema' := by
  have hkey : shape'.hasKey key = .ok true := h.hasKey key ▸ hholds.1
  obtain ⟨schema', hschema'⟩ := Value.get_of_hasKey hkey
  exact ⟨schema', ⟨hkey, hschema'⟩, h.holds hholds ⟨hkey, hschema'⟩⟩

theorem Matching.member {shape shape' : Value} (h : Matching host W shape shape') (strict : Bool)
    (entry : Value × Value) :
    Parallel W (member (check host) shape strict entry)
      (member (check host) shape' strict entry) := by
  obtain ⟨key, item⟩ := entry
  rcases shape.key_cases key with ⟨schema, hkey⟩ | ⟨schema, hkey⟩ | hkey | ⟨fault, hkey⟩
  · obtain ⟨schema', hkey', hagree⟩ := h.exists_holds hkey
    rw [member_of_holds hkey, member_of_holds hkey']
    exact (hagree.parallel item).map _ _
  · obtain ⟨schema', hwildcard', hagree⟩ := h.exists_holds hkey.2
    have hkey' : shape'.Covers key schema' := ⟨h.hasKey key ▸ hkey.1, hwildcard'⟩
    rw [member_of_covers hkey, member_of_covers hkey']
    refine (hagree.parallel item).bind ?_ ?_
    · exact .pass
    intro problem problem'
    -- The text of the key is the same on both sides, if there is one.
    cases hplain : coveredKey key with
    | error fault => exact .failed (settles_throw fault) (settles_throw fault)
    | ok told => exact .reject _ _
  · have hkey' : shape'.Leaves key := ⟨h.hasKey key ▸ hkey.1, h.hasKey .wildcard ▸ hkey.2⟩
    rw [member_of_leaves hkey, member_of_leaves hkey']
    exact .refl ⟨_, settles_pure _⟩
  · have hkey' : shape'.hasKey key = .error fault := h.hasKey key ▸ hkey
    rw [member_of_error hkey, member_of_error hkey']
    exact .failed (settles_throw fault) (settles_throw fault)

theorem Matching.members {shape shape' : Value} (h : Matching host W shape shape') (v : Value)
    (strict : Bool) :
    Parallel W (members (check host) shape v strict) (members (check host) shape' v strict) :=
  .eachMember fun entry _ => h.member strict entry

/-- Shapes with the same keys ask for the same keys. -/
theorem required_eq {declared declared' : Value}
    (hkeys : List.Forall₂ (fun e e' => e.1 = e'.1) declared.listing.members
      declared'.listing.members)
    (hfault : declared.listing.fault = declared'.listing.fault) (v : Value) :
    required (σ := σ) declared v = required declared' v := by
  have hpresent (e e' : Value × Value) (hkey : e.1 = e'.1) :
      present (σ := σ) v e = present v e' := by
    simp only [present, hkey]
  have hmembers : firstMismatch (present (σ := σ) v) declared.listing.members =
      firstMismatch (present v) declared'.listing.members := by
    generalize declared.listing.members = members at hkeys
    generalize declared'.listing.members = members' at hkeys
    induction hkeys with
    | nil => rfl
    | cons hkey _ ih => simp only [firstMismatch, hpresent _ _ hkey, ih]
  simp only [required, eachMember, hmembers, hfault]

theorem Agree.shape (h : Matching host W d d') (hd : d.demand = .shape)
    (hd' : d'.demand = .shape) : Agree host W d d' := by
  apply agree_iff.mpr
  intro v
  rw [check_eq_meet, check_eq_meet, hd, hd', meet, meet]
  by_cases hv : v.isPrimitive = true
  · rw [if_pos hv, if_pos hv]
    exact .reject _ _
  · rw [if_neg hv, if_neg hv, exactShape, exactShape, required_eq h.keys h.fault]
    exact .bind_mismatch (.refl required_settled) (h.members v true)

theorem Agree.optional {own own' others others' : List (Value × Value)}
    (hown : List.Forall₂ (fun e e' => e.1 = e'.1) own own')
    (hothers : Matching host W (.dict others) (.dict others'))
    (hd : d.demand = .optional own others) (hd' : d'.demand = .optional own' others') :
    Agree host W d d' := by
  apply agree_iff.mpr
  intro v
  rw [check_eq_meet, check_eq_meet, hd, hd', meet, meet]
  by_cases hv : v.isObject = true
  · have hrequired : required (σ := σ) (.dict own) v = required (.dict own') v :=
      @required_eq σ (.dict own) (.dict own') hown rfl v
    rw [if_pos hv, if_pos hv, optionalObject, optionalObject, hrequired]
    apply Parallel.bind_mismatch (hothers.members v false)
    exact .bind_mismatch (.refl required_settled) (hothers.members v true)
  · rw [if_neg hv, if_neg hv]
    exact .reject _ _

/-! ## Containers that match entry by entry -/

/-- Entries under the same keys, in the same order, with agreeing schemas. -/
def Aligned (host : Host σ) (W : World σ → Prop) :
    List (Value × Value) → List (Value × Value) → Prop :=
  List.Forall₂ fun e e' => e.1 = e'.1 ∧ Agree host W e.2 e'.2

theorem Aligned.keys {entries entries' : List (Value × Value)}
    (h : Aligned host W entries entries') :
    List.Forall₂ (fun e e' => e.1 = e'.1) entries entries' :=
  h.imp fun _ _ hentry => hentry.1

theorem Aligned.declares {entries entries' : List (Value × Value)}
    (h : Aligned host W entries entries') (key : Value) :
    Value.declares entries key = Value.declares entries' key := by
  induction h with
  | nil => rfl
  | cons hhead _ ih =>
      simp only [Value.declares, List.any_cons, hhead.1] at ih ⊢
      rw [ih]

theorem Aligned.entryAt {entries entries' : List (Value × Value)} {key : Value}
    {e e' : Value × Value} (h : Aligned host W entries entries')
    (he : Value.entryAt? entries key = some e) (he' : Value.entryAt? entries' key = some e') :
    Agree host W e.2 e'.2 := by
  induction h with
  | nil => cases he
  | @cons head head' _ _ hhead _ ih =>
      simp only [Value.entryAt?, List.find?_cons, hhead.1] at he he' ih
      cases hsame : Value.sameKey head'.1 key with
      | true =>
          simp only [hsame, Option.some.injEq] at he he'
          exact he ▸ he' ▸ hhead.2
      | false =>
          simp only [hsame] at he he'
          exact ih he he'

theorem Aligned.matching {entries entries' : List (Value × Value)}
    (h : Aligned host W entries entries') {mark : Nat} {kind : MappingKind} :
    Matching host W (.mapping mark kind entries) (.mapping mark kind entries') where
  hasKey key := by simp only [Value.hasKey, h.declares key]
  holds hholds hholds' := by
    obtain ⟨e, he, rfl⟩ := Value.exists_entryAt_of_holds hholds
    obtain ⟨e', he', rfl⟩ := Value.exists_entryAt_of_holds hholds'
    exact h.entryAt he he'
  keys := h.keys
  fault := rfl

theorem Aligned.insertEntry {entries entries' : List (Value × Value)}
    (h : Aligned host W entries entries') {key : Value} (hagree : Agree host W schema schema') :
    Aligned host W (Value.insertEntry entries key schema)
      (Value.insertEntry entries' key schema') := by
  induction h with
  | nil => exact .cons ⟨rfl, hagree⟩ .nil
  | @cons head head' _ _ hhead htail ih =>
      simp only [Value.insertEntry, hhead.1]
      cases Value.sameKey head'.1 key with
      | true => exact .cons ⟨rfl, hagree⟩ htail
      | false => exact .cons hhead ih

theorem Aligned.mergeEntries {entries entries' others others' : List (Value × Value)}
    (h : Aligned host W entries entries') (hothers : Aligned host W others others') :
    Aligned host W (Value.mergeEntries entries others) (Value.mergeEntries entries' others') := by
  induction hothers generalizing entries entries' with
  | nil => exact h
  | @cons head head' _ _ hhead _ ih =>
      apply ih
      dsimp only
      rw [hhead.1]
      exact h.insertEntry hhead.2

/-- Objects with the same required and optional keys agree if their schemas do. -/
theorem Aligned.optionalOf {required required' optional optional' : List (Value × Value)}
    (hrequired : Aligned host W required required')
    (hoptional : Aligned host W optional optional') (mark : Nat) :
    Agree host W ((Schema.optionalOf required optional).withMark mark)
      ((Schema.optionalOf required' optional').withMark mark) := by
  have hown : Aligned host W (Value.collectEntries required) (Value.collectEntries required') :=
    Aligned.mergeEntries .nil hrequired
  exact .optional hown.keys (hown.mergeEntries hoptional).matching rfl rfl

theorem positions_keys {items items' : List Value} {R : Value → Value → Prop}
    (h : List.Forall₂ R items items') (start : Nat) :
    List.Forall₂ (fun e e' => e.1 = e'.1) (Value.positions start items)
      (Value.positions start items') := by
  induction h generalizing start with
  | nil => exact .nil
  | cons _ _ ih => exact .cons rfl (ih (start + 1))

theorem matching_sequence {items items' : List Value} (h : List.Forall₂ (Agree host W) items items')
    {mark : Nat} {kind : SequenceKind} :
    Matching host W (.sequence mark kind items) (.sequence mark kind items') where
  hasKey key := by simp only [Value.hasKey, h.length_eq]
  holds hholds hholds' := by
    obtain ⟨i, hposition, hitem⟩ := Value.holds_sequence_iff.mp hholds
    obtain ⟨j, hposition', hitem'⟩ := Value.holds_sequence_iff.mp hholds'
    have hij : (i : Int) = j := Option.some.inj (hposition.symm.trans hposition')
    obtain rfl := Int.ofNat_inj.mp hij
    obtain ⟨hlt, rfl⟩ := List.getElem?_eq_some_iff.mp hitem
    obtain ⟨hlt', rfl⟩ := List.getElem?_eq_some_iff.mp hitem'
    exact h.get hlt hlt'
  keys := positions_keys h 0
  fault := rfl

end Check

end ShapeCheck
