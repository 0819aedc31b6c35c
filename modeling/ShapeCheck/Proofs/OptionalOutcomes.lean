import ShapeCheck.Proofs.Conformance
import ShapeCheck.Proofs.OptionalShapes

/-!
# How the check of an object with optional keys ends

Such an object is gone through three times: once for what its members hold, once for the
required keys, and once for keys that are not declared.  `ObjectEnds` tells what comes of
this without any passes.  A member that is rejected is told first, then a required key that
is missing, then a key that is neither declared nor covered; in each case it is the first
of its kind that is told.

With pure predicates the check ends in exactly these ways (`optional_object_ends`), and the
last pass can only tell an undeclared key, since whatever the members hold was accepted
before.  The remaining ends are the faults that may come up on the way.
-/

namespace ShapeCheck

namespace Run

variable {σ α : Type} {W : World σ → Prop} {w : World σ} {answer : Except Fault Outcome}

/-- What a settled run settles on is what it answers once. -/
theorem Settled.settles_iff {run : Run σ α} {answer : Except Fault α} (h : Settled W run)
    (hw : W w) : Settles W run answer ↔ (run.startedIn w).1 = answer := by
  constructor
  · intro hrun
    obtain ⟨w', -, hrun⟩ := hrun w hw
    rw [hrun]
  · intro hrun
    exact (h.settles hw (Prod.ext hrun rfl)).1

/-- Two settled tests in a row end as the first one, or else, if it passes, as the second. -/
theorem settles_bind_mismatch_iff {first rest : Run σ Outcome} (hw : W w)
    (hfirst : Settled W first) (hrest : Settled W rest) :
    Settles W (first >>= fun outcome =>
      match outcome with
      | some problem => pure (some problem)
      | none => rest) answer ↔
      answer ≠ .ok none ∧ Settles W first answer ∨
        Settles W first (.ok none) ∧ Settles W rest answer := by
  constructor
  · intro h
    obtain ⟨fault | _ | problem, hfirst⟩ := hfirst
    · obtain rfl := h.unique hw hfirst.bind_error
      exact .inl ⟨error_ne_pass fault, hfirst⟩
    · obtain ⟨answer', hrest⟩ := hrest
      obtain rfl := h.unique hw (hfirst.bind_ok hrest)
      exact .inr ⟨hfirst, hrest⟩
    · obtain rfl := h.unique hw (hfirst.bind_ok (settles_pure _))
      exact .inl ⟨mismatch_ne_pass problem, hfirst⟩
  · rintro (⟨hanswer, hfirst⟩ | ⟨hfirst, hrest⟩)
    · rcases answer with fault | _ | problem
      · exact hfirst.bind_error
      · exact absurd rfl hanswer
      · exact hfirst.bind_ok (settles_pure _)
    · exact hfirst.bind_ok hrest

/-- The ways in which a traversal ends, by what its items end in: all of them pass, or one
is the first that does not. -/
inductive FirstEnds (W : World σ → Prop) (test : α → Run σ Outcome) (items : List α) :
    Except Fault Outcome → Prop
  | passed (hall : ∀ item ∈ items, Settles W (test item) (.ok none)) :
      FirstEnds W test items (.ok none)
  | stopped {before after : List α} {item : α} {answer : Except Fault Outcome}
      (hitems : items = before ++ item :: after)
      (hbefore : ∀ earlier ∈ before, Settles W (test earlier) (.ok none))
      (hitem : Settles W (test item) answer) (hanswer : answer ≠ .ok none) :
      FirstEnds W test items answer

variable {test : α → Run σ Outcome} {items : List α}

theorem settles_firstMismatch_iff (hw : W w) (htests : ∀ item ∈ items, Settled W (test item)) :
    Settles W (firstMismatch test items) answer ↔ FirstEnds W test items answer := by
  induction items with
  | nil =>
      constructor
      · intro h
        obtain rfl := h.unique hw (settles_pure none)
        exact .passed (by simp)
      · rintro (- | ⟨hitems, -, -, -⟩)
        · exact settles_pure none
        · simp at hitems
  | cons head tail ih =>
      rw [List.forall_mem_cons] at htests
      refine (settles_bind_mismatch_iff hw htests.1 (firstMismatch_settled htests.2)).trans ?_
      rw [ih htests.2]
      constructor
      · rintro (⟨hanswer, hhead⟩ | ⟨hhead, hall | ⟨hitems, hbefore, hitem, hanswer⟩⟩)
        · have hitems : head :: tail = [] ++ head :: tail := rfl
          exact .stopped hitems (by simp) hhead hanswer
        · exact .passed (List.forall_mem_cons.mpr ⟨hhead, hall⟩)
        · exact .stopped (congrArg (head :: ·) hitems) (List.forall_mem_cons.mpr ⟨hhead, hbefore⟩)
            hitem hanswer
      · rintro (hall | @⟨before, after, item, _, hitems, hbefore, hitem, hanswer⟩)
        · rw [List.forall_mem_cons] at hall
          exact .inr ⟨hall.1, .passed hall.2⟩
        · cases before with
          | nil =>
              obtain ⟨rfl, -⟩ := List.cons.inj hitems
              exact .inl ⟨hanswer, hitem⟩
          | cons first before =>
              obtain ⟨rfl, htail⟩ := List.cons.inj hitems
              rw [List.forall_mem_cons] at hbefore
              exact .inr ⟨hbefore.1, .stopped htail hbefore.2 hitem hanswer⟩

theorem firstEnds_pass_iff :
    FirstEnds W test items (.ok none) ↔ ∀ item ∈ items, Settles W (test item) (.ok none) := by
  constructor
  · rintro (hall | ⟨-, -, -, hanswer⟩)
    · exact hall
    · exact absurd rfl hanswer
  · exact .passed

/-- Testing the members of a listing ends at the first one that does not pass, or else as the
listing itself ends. -/
theorem settles_eachMember_iff {listing : Listing} {test : Value × Value → Run σ Outcome}
    (hw : W w) (htests : ∀ m ∈ listing.members, Settled W (test m)) :
    Settles W (eachMember listing test) answer ↔
      answer ≠ .ok none ∧ FirstEnds W test listing.members answer ∨
        (∀ m ∈ listing.members, Settles W (test m) (.ok none)) ∧
          answer = listing.fault.elim (.ok none) .error := by
  obtain ⟨ending, hending, heach⟩ : ∃ ending : Run σ Outcome,
      Settles W ending (listing.fault.elim (.ok none) .error) ∧
        eachMember listing test = firstMismatch test listing.members >>= fun outcome =>
          match outcome with
          | some problem => pure (some problem)
          | none => ending := by
    refine ⟨_, ?_, rfl⟩
    cases listing.fault with
    | none => exact settles_pure none
    | some fault => exact settles_throw fault
  rw [heach, settles_bind_mismatch_iff hw (firstMismatch_settled htests) ⟨_, hending⟩,
    settles_firstMismatch_iff hw htests, settles_firstMismatch_iff hw htests, firstEnds_pass_iff]
  refine or_congr Iff.rfl (and_congr Iff.rfl ⟨fun h => h.unique hw hending, ?_⟩)
  rintro rfl
  exact hending

end Run

namespace Check

open Run

variable {σ : Type} {host : Host σ} {W : World σ → Prop} {shape v : Value} {strict : Bool}
  {entry : Value × Value} {own others : List (Value × Value)} {w : World σ}
  {answer : Except Fault Outcome} {problem : Problem} {fault : Fault}

/-! ## The ends of one test -/

/-- A member passes where keys that are not declared are let through: the shape has a schema
for its key which accepts its item, or has none. -/
inductive Passes (host : Host σ) (W : World σ → Prop) (shape : Value) (entry : Value × Value) :
    Prop
  | accepted {schema : Value} (hkey : shape.Assigns entry.1 schema)
      (haccepts : Accepts host W schema entry.2) : Passes host W shape entry
  | left (hkey : shape.Leaves entry.1) : Passes host W shape entry

/-- The faults that the test of a member may end in: its item has a check that fails, or is
rejected under a covered key that has no text, or its key can be none. -/
inductive MemberFails (host : Host σ) (W : World σ → Prop) (shape : Value)
    (entry : Value × Value) (fault : Fault) : Prop
  | item {schema : Value} (hkey : shape.Assigns entry.1 schema)
      (hfails : Settles W (check host schema entry.2) (.error fault)) :
      MemberFails host W shape entry fault
  | untold {schema : Value} {inner : Problem} (hkey : shape.Covers entry.1 schema)
      (hrejects : Rejects host W schema entry.2 inner) (hplain : entry.1.plain = .error fault) :
      MemberFails host W shape entry fault
  | key (hkey : shape.hasKey entry.1 = .error fault) : MemberFails host W shape entry fault

section

variable (hw : W w)
  (hsettled : ∀ schema, shape.Assigns entry.1 schema → Settled W (check host schema entry.2))

include hw hsettled

theorem member_settles_pass_iff :
    Settles W (member (check host) shape strict entry) (.ok none) ↔
      Passes host W shape entry ∧ (strict = true → HasSchema shape entry.1) := by
  constructor
  · intro h
    obtain ⟨w', -, hrun⟩ := h w hw
    rcases member_eq_pass_iff.mp hrun with ⟨schema, hkey, hitem⟩ | ⟨hkey, rfl, -⟩
    · exact ⟨.accepted hkey ((hsettled schema hkey).settles hw hitem).1, fun _ => ⟨schema, hkey⟩⟩
    · exact ⟨.left hkey, nofun⟩
  · rintro ⟨hpasses, hstrict⟩ w₁ hw₁
    rcases hpasses with ⟨hkey, haccepts⟩ | hkey
    · obtain ⟨w₂, hw₂, hitem⟩ := haccepts w₁ hw₁
      exact ⟨w₂, hw₂, member_eq_pass_iff.mpr (.inl ⟨_, hkey, hitem⟩)⟩
    · have hlax : strict = false := by
        rw [Bool.eq_false_iff]
        intro htrue
        obtain ⟨schema, hassigns⟩ := hstrict htrue
        exact hkey.not_assigns hassigns
      exact ⟨w₁, hw₁, member_eq_pass_iff.mpr (.inr ⟨hkey, hlax, rfl⟩)⟩

theorem member_settles_mismatch_iff :
    Settles W (member (check host) shape strict entry) (.ok (some problem)) ↔
      MemberRejected host W shape strict entry problem := by
  constructor
  · intro h
    obtain ⟨w', -, hrun⟩ := h w hw
    rcases member_eq_mismatch_iff.mp hrun with
      ⟨schema, inner, hkey, hitem, rfl⟩ | ⟨schema, inner, plain, hkey, hitem, hplain, rfl⟩ |
        ⟨hkey, hstrict, -, rfl⟩
    · exact .item (.held hkey) ((hsettled schema (.inl hkey)).settles hw hitem).1
    · exact .item (.covered hkey hplain) ((hsettled schema (.inr hkey)).settles hw hitem).1
    · exact .extra hkey hstrict
  · rintro (⟨htold, hrejects⟩ | ⟨hkey, hstrict⟩) w₁ hw₁
    · obtain ⟨w₂, hw₂, hitem⟩ := hrejects w₁ hw₁
      refine ⟨w₂, hw₂, member_eq_mismatch_iff.mpr ?_⟩
      cases htold with
      | held hkey => exact .inl ⟨_, _, hkey, hitem, rfl⟩
      | covered hkey hplain => exact .inr (.inl ⟨_, _, _, hkey, hitem, hplain, rfl⟩)
    · exact ⟨w₁, hw₁, member_eq_mismatch_iff.mpr (.inr (.inr ⟨hkey, hstrict, rfl, rfl⟩))⟩

theorem member_settles_error_iff :
    Settles W (member (check host) shape strict entry) (.error fault) ↔
      MemberFails host W shape entry fault := by
  constructor
  · intro h
    obtain ⟨w', -, hrun⟩ := h w hw
    rcases member_eq_error_iff.mp hrun with
      ⟨hkey, -⟩ | ⟨schema, hkey, hitem⟩ | ⟨schema, inner, hkey, hitem, hplain⟩
    · exact .key hkey
    · exact .item hkey ((hsettled schema hkey).settles hw hitem).1
    · exact .untold hkey ((hsettled schema (.inr hkey)).settles hw hitem).1 hplain
  · rintro (⟨hkey, hfails⟩ | ⟨hkey, hrejects, hplain⟩ | hkey) w₁ hw₁
    · obtain ⟨w₂, hw₂, hitem⟩ := hfails w₁ hw₁
      exact ⟨w₂, hw₂, member_eq_error_iff.mpr (.inr (.inl ⟨_, hkey, hitem⟩))⟩
    · obtain ⟨w₂, hw₂, hitem⟩ := hrejects w₁ hw₁
      exact ⟨w₂, hw₂, member_eq_error_iff.mpr (.inr (.inr ⟨_, _, hkey, hitem, hplain⟩))⟩
    · exact ⟨w₁, hw₁, member_eq_error_iff.mpr (.inl ⟨hkey, rfl⟩)⟩

end

/-- Asking for a declared key ends in one way in all surroundings. -/
theorem present_settles (hkey : entry.1.isWildcard = false) :
    Settles W (present v entry) ((v.hasKey entry.1).map fun found =>
      .ofBool found (.requiredKeyMissing entry.1)) := by
  intro w₁ hw₁
  refine ⟨w₁, hw₁, ?_⟩
  rw [present_of_ne_wildcard hkey, bind_startedIn, lift_startedIn]
  cases v.hasKey entry.1 <;> rfl

theorem present_settles_pass_iff (hw : W w) (hkey : entry.1.isWildcard = false) :
    Settles W (present v entry) (.ok none) ↔ v.hasKey entry.1 = .ok true := by
  have hends := present_settles (W := W) (v := v) hkey
  constructor
  · intro h
    have hanswer := hends.unique hw h
    rcases hfound : v.hasKey entry.1 with fault | _ | _
    · simp [hfound, Except.map] at hanswer
    · simp [hfound, Except.map, Outcome.ofBool] at hanswer
    · rfl
  · intro hfound
    rw [hfound] at hends
    exact hends

/-! ## The ends of a check -/

/-- The ways in which the check of an object ends that has to have some keys and may have
others: by what its members hold, by the required keys, and by the keys of its members. -/
inductive ObjectEnds (host : Host σ) (W : World σ → Prop) (own others : List (Value × Value))
    (v : Value) : Except Fault Outcome → Prop
  /-- The first member that is rejected, whatever keys are missing or not declared. -/
  | rejected {before after : List (Value × Value)} {entry : Value × Value} {schema told : Value}
      {inner : Problem} (hmembers : v.listing.members = before ++ entry :: after)
      (hbefore : ∀ earlier ∈ before, Passes host W (.dict others) earlier)
      (htold : ToldAs (.dict others) entry.1 schema told)
      (hrejects : Rejects host W schema entry.2 inner) :
      ObjectEnds host W own others v (.ok (some (.objectError inner told)))
  /-- No member is rejected, and this is the first required key that is missing. -/
  | missing {before after : List (Value × Value)} {entry : Value × Value}
      (hpasses : ∀ member ∈ v.listing.members, Passes host W (.dict others) member)
      (hlisting : v.listing.fault = none) (hown : own = before ++ entry :: after)
      (hbefore : ∀ earlier ∈ before, v.hasKey earlier.1 = .ok true)
      (hmissing : v.hasKey entry.1 = .ok false) :
      ObjectEnds host W own others v (.ok (some (.requiredKeyMissing entry.1)))
  /-- Nothing is missing either, and this is the first key that is not covered. -/
  | extra {before after : List (Value × Value)} {entry : Value × Value}
      (hpasses : ∀ member ∈ v.listing.members, Passes host W (.dict others) member)
      (hlisting : v.listing.fault = none)
      (hrequired : ∀ e ∈ own, v.hasKey e.1 = .ok true)
      (hmembers : v.listing.members = before ++ entry :: after)
      (hbefore : ∀ earlier ∈ before, HasSchema (.dict others) earlier.1)
      (hextra : (Value.dict others).Leaves entry.1) :
      ObjectEnds host W own others v (.ok (some (.illegalExtraKey entry.1)))
  | accepted
      (hpasses : ∀ member ∈ v.listing.members, Passes host W (.dict others) member)
      (hlisting : v.listing.fault = none)
      (hrequired : ∀ e ∈ own, v.hasKey e.1 = .ok true)
      (hcovered : ∀ member ∈ v.listing.members, HasSchema (.dict others) member.1) :
      ObjectEnds host W own others v (.ok none)
  | memberFails {before after : List (Value × Value)} {entry : Value × Value} {fault : Fault}
      (hmembers : v.listing.members = before ++ entry :: after)
      (hbefore : ∀ earlier ∈ before, Passes host W (.dict others) earlier)
      (hfails : MemberFails host W (.dict others) entry fault) :
      ObjectEnds host W own others v (.error fault)
  | listingFails {fault : Fault}
      (hpasses : ∀ member ∈ v.listing.members, Passes host W (.dict others) member)
      (hlisting : v.listing.fault = some fault) : ObjectEnds host W own others v (.error fault)
  | presenceFails {before after : List (Value × Value)} {entry : Value × Value} {fault : Fault}
      (hpasses : ∀ member ∈ v.listing.members, Passes host W (.dict others) member)
      (hlisting : v.listing.fault = none) (hown : own = before ++ entry :: after)
      (hbefore : ∀ earlier ∈ before, v.hasKey earlier.1 = .ok true)
      (hkey : v.hasKey entry.1 = .error fault) : ObjectEnds host W own others v (.error fault)

section

variable (hw : W w) (hsettled : MembersSettled host W (.dict others) v)

include hw hsettled

theorem members_settles_iff :
    Settles W (members (check host) (.dict others) v strict) answer ↔
      answer ≠ .ok none ∧
          FirstEnds W (member (check host) (.dict others) strict) v.listing.members answer ∨
        (∀ entry ∈ v.listing.members,
            Settles W (member (check host) (.dict others) strict entry) (.ok none)) ∧
          answer = v.listing.fault.elim (.ok none) .error :=
  settles_eachMember_iff hw fun entry hentry => member_settled (hsettled entry hentry)

/-- The first pass lets members through exactly if they pass. -/
theorem forall_lax_iff {entries : List (Value × Value)}
    (hentries : ∀ entry ∈ entries, entry ∈ v.listing.members) :
    (∀ entry ∈ entries,
        Settles W (member (check host) (.dict others) false entry) (.ok none)) ↔
      ∀ entry ∈ entries, Passes host W (.dict others) entry := by
  refine forall₂_congr fun entry hentry => ?_
  rw [member_settles_pass_iff hw (hsettled entry (hentries entry hentry))]
  simp

/-- The first pass lets an object through exactly if all its members pass. -/
theorem lax_settles_pass_iff :
    Settles W (members (check host) (.dict others) v false) (.ok none) ↔
      (∀ entry ∈ v.listing.members, Passes host W (.dict others) entry) ∧
        v.listing.fault = none := by
  rw [members_settles_iff hw hsettled, forall_lax_iff hw hsettled fun _ h => h]
  cases v.listing.fault <;> simp

/-- A pass ends at a member that does not pass after members that do. -/
theorem members_settles_of_split {before after : List (Value × Value)}
    (hsplit : v.listing.members = before ++ entry :: after)
    (hbefore : ∀ earlier ∈ before,
      Settles W (member (check host) (.dict others) strict earlier) (.ok none))
    (hentry : Settles W (member (check host) (.dict others) strict entry) answer)
    (hanswer : answer ≠ .ok none) :
    Settles W (members (check host) (.dict others) v strict) answer :=
  (members_settles_iff hw hsettled).mpr (.inl ⟨hanswer, .stopped hsplit hbefore hentry hanswer⟩)

/-- Where the first pass does not let an object through, the check has come to its end. -/
theorem ObjectEnds.of_lax (h : Settles W (members (check host) (.dict others) v false) answer)
    (hanswer : answer ≠ .ok none) : ObjectEnds host W own others v answer := by
  rcases (members_settles_iff hw hsettled).mp h with
    ⟨-, - | @⟨before, after, entry, _, hmembers, hbefore, hentry, -⟩⟩ | ⟨hall, rfl⟩
  · exact absurd rfl hanswer
  · have hmem : entry ∈ v.listing.members := by simp [hmembers]
    have hpasses := (forall_lax_iff hw hsettled
      fun earlier hearlier => hmembers ▸ List.mem_append_left _ hearlier).mp hbefore
    rcases answer with fault | _ | problem
    · exact .memberFails hmembers hpasses
        ((member_settles_error_iff hw (hsettled entry hmem)).mp hentry)
    · exact absurd rfl hanswer
    · cases (member_settles_mismatch_iff hw (hsettled entry hmem)).mp hentry with
      | item htold hrejects => exact .rejected hmembers hpasses htold hrejects
      | extra _ hstrict => cases hstrict
  · cases hlisting : v.listing.fault with
    | none => simp [hlisting] at hanswer
    | some fault => exact .listingFails ((forall_lax_iff hw hsettled fun _ h => h).mp hall) hlisting

/-- Where all members pass and no required key is missing, the last pass tells the first
key that is not covered. -/
theorem ObjectEnds.of_strict
    (hpasses : ∀ member ∈ v.listing.members, Passes host W (.dict others) member)
    (hlisting : v.listing.fault = none) (hrequired : ∀ e ∈ own, v.hasKey e.1 = .ok true)
    (h : Settles W (members (check host) (.dict others) v true) answer) :
    ObjectEnds host W own others v answer := by
  have hpass_iff {entry : Value × Value} (hentry : entry ∈ v.listing.members) :
      Settles W (member (check host) (.dict others) true entry) (.ok none) ↔ _ :=
    member_settles_pass_iff hw (hsettled entry hentry)
  rcases (members_settles_iff hw hsettled).mp h with
    ⟨hanswer, - | @⟨before, after, entry, _, hmembers, hbefore, hentry, -⟩⟩ | ⟨hall, rfl⟩
  · exact absurd rfl hanswer
  · have hmem : entry ∈ v.listing.members := by simp [hmembers]
    rcases hpasses entry hmem with ⟨hkey, haccepts⟩ | hkey
    · -- What was accepted in the first pass is accepted again.
      have hagain := (hpass_iff hmem).mpr ⟨.accepted hkey haccepts, fun _ => ⟨_, hkey⟩⟩
      exact absurd (hentry.unique hw hagain) hanswer
    · have hextra := (member_settles_mismatch_iff hw (hsettled entry hmem)).mpr (.extra hkey rfl)
      obtain rfl := hentry.unique hw hextra
      refine .extra hpasses hlisting hrequired hmembers ?_ hkey
      intro earlier hearlier
      have hlisted : earlier ∈ v.listing.members := hmembers ▸ List.mem_append_left _ hearlier
      exact ((hpass_iff hlisted).mp (hbefore earlier hearlier)).2 rfl
  · rw [hlisting]
    exact .accepted hpasses hlisting hrequired
      fun entry hentry => ((hpass_iff hentry).mp (hall entry hentry)).2 rfl

end

section

variable (hw : W w) (hown : ∀ e ∈ own, e.1.isWildcard = false)

include hw

theorem required_settles_iff :
    Settles W (required (.dict own) v) answer ↔
      answer ≠ .ok none ∧ FirstEnds W (present v) own answer ∨
        (∀ e ∈ own, Settles W (present v e) (.ok none)) ∧ answer = .ok none :=
  settles_eachMember_iff hw fun entry _ => present_settled entry

include hown

theorem required_settles_pass_iff :
    Settles W (required (.dict own) v) (.ok none) ↔ ∀ e ∈ own, v.hasKey e.1 = .ok true := by
  rw [required_settles_iff hw]
  simp only [ne_eq, not_true_eq_false, false_and, false_or, and_true]
  exact forall₂_congr fun e he => present_settles_pass_iff hw (hown e he)

/-- The second pass ends at a required key that is not there after keys that are. -/
theorem required_settles_of_split {before after : List (Value × Value)}
    (hsplit : own = before ++ entry :: after)
    (hbefore : ∀ earlier ∈ before, v.hasKey earlier.1 = .ok true)
    (hanswer : (v.hasKey entry.1).map (Outcome.ofBool · (.requiredKeyMissing entry.1)) = answer)
    (hnone : answer ≠ .ok none) : Settles W (required (.dict own) v) answer := by
  have hmem : entry ∈ own := by simp [hsplit]
  have hentry := present_settles (W := W) (v := v) (hown entry hmem)
  rw [hanswer] at hentry
  refine (required_settles_iff hw).mpr (.inl ⟨hnone, .stopped hsplit ?_ hentry hnone⟩)
  intro earlier hearlier
  have hlisted : earlier ∈ own := hsplit ▸ List.mem_append_left _ hearlier
  exact (present_settles_pass_iff hw (hown earlier hlisted)).mpr (hbefore earlier hearlier)

/-- Where all members pass, the second pass tells the first required key that is missing. -/
theorem ObjectEnds.of_required
    (hpasses : ∀ member ∈ v.listing.members, Passes host W (.dict others) member)
    (hlisting : v.listing.fault = none) (h : Settles W (required (.dict own) v) answer)
    (hanswer : answer ≠ .ok none) : ObjectEnds host W own others v answer := by
  rcases (required_settles_iff hw).mp h with
    ⟨-, - | @⟨before, after, entry, _, hitems, hbefore, hentry, -⟩⟩ | ⟨-, rfl⟩
  · exact absurd rfl hanswer
  · have hearlier : ∀ e ∈ before, v.hasKey e.1 = .ok true := by
      intro e he
      have hmem : e ∈ own := hitems ▸ List.mem_append_left _ he
      exact (present_settles_pass_iff hw (hown e hmem)).mp (hbefore e he)
    have hmem : entry ∈ own := by simp [hitems]
    obtain rfl := hentry.unique hw (present_settles (hown entry hmem))
    rcases hfound : v.hasKey entry.1 with fault | _ | _
    · exact .presenceFails hpasses hlisting hitems hearlier hfound
    · exact .missing hpasses hlisting hitems hearlier hfound
    · simp [hfound, Except.map, Outcome.ofBool] at hanswer
  · exact absurd rfl hanswer

end

/-- With settled members, the three passes come to exactly these ends. -/
theorem optionalObject_settles_iff (hw : W w) (hown : ∀ e ∈ own, e.1.isWildcard = false)
    (hsettled : MembersSettled host W (.dict others) v) :
    Settles W (optionalObject (check host) own others v) answer ↔
      ObjectEnds host W own others v answer := by
  have hmembers (strict : Bool) : Settled W (members (check host) (.dict others) v strict) :=
    members_settled hsettled
  have hlater : Settled W (required (.dict own) v >>= fun outcome =>
      match outcome with
      | some problem => pure (some problem)
      | none => members (check host) (.dict others) v true) :=
    required_settled.bind_mismatch (hmembers true)
  refine (settles_bind_mismatch_iff hw (hmembers false) hlater).trans ?_
  rw [settles_bind_mismatch_iff hw required_settled (hmembers true),
    lax_settles_pass_iff hw hsettled, required_settles_pass_iff hw hown]
  constructor
  · rintro (⟨hanswer, hlax⟩ | ⟨⟨hpasses, hlisting⟩, ⟨hanswer, hrequired⟩ | ⟨hrequired, hstrict⟩⟩)
    · exact .of_lax hw hsettled hlax hanswer
    · exact .of_required hw hown hpasses hlisting hrequired hanswer
    · exact .of_strict hw hsettled hpasses hlisting hrequired hstrict
  · have hlax {before after : List (Value × Value)} {entry : Value × Value}
        (hsplit : v.listing.members = before ++ entry :: after)
        (hbefore : ∀ earlier ∈ before, Passes host W (.dict others) earlier) :=
      (forall_lax_iff hw hsettled
        fun earlier hearlier => hsplit ▸ List.mem_append_left _ hearlier).mpr hbefore
    intro h
    cases h with
    | @rejected before after entry schema told inner hsplit hbefore htold hrejects =>
        have hitem : Settles W (member (check host) (.dict others) false entry)
            (.ok (some (.objectError inner told))) :=
          (member_settles_mismatch_iff hw (hsettled entry (by simp [hsplit]))).mpr
            (.item htold hrejects)
        exact .inl ⟨mismatch_ne_pass _, members_settles_of_split hw hsettled hsplit
          (hlax hsplit hbefore) hitem (mismatch_ne_pass _)⟩
    | missing hpasses hlisting hsplit hbefore hmissing =>
        refine .inr ⟨⟨hpasses, hlisting⟩, .inl ⟨mismatch_ne_pass _, ?_⟩⟩
        exact required_settles_of_split hw hown hsplit hbefore (by rw [hmissing]; rfl)
          (mismatch_ne_pass _)
    | @extra before after entry hpasses hlisting hrequired hsplit hbefore hextra =>
        refine .inr ⟨⟨hpasses, hlisting⟩, .inr ⟨hrequired, ?_⟩⟩
        have hlisted {e : Value × Value} (he : e ∈ before) : e ∈ v.listing.members :=
          hsplit ▸ List.mem_append_left _ he
        have hitem : Settles W (member (check host) (.dict others) true entry)
            (.ok (some (.illegalExtraKey entry.1))) :=
          (member_settles_mismatch_iff hw (hsettled entry (by simp [hsplit]))).mpr
            (.extra hextra rfl)
        refine members_settles_of_split hw hsettled hsplit ?_ hitem (mismatch_ne_pass _)
        intro e he
        exact (member_settles_pass_iff hw (hsettled e (hlisted he))).mpr
          ⟨hpasses e (hlisted he), fun _ => hbefore e he⟩
    | accepted hpasses hlisting hrequired hcovered =>
        refine .inr ⟨⟨hpasses, hlisting⟩, .inr ⟨hrequired, ?_⟩⟩
        refine (members_settles_iff hw hsettled).mpr (.inr ⟨?_, by rw [hlisting]; rfl⟩)
        intro e he
        exact (member_settles_pass_iff hw (hsettled e he)).mpr
          ⟨hpasses e he, fun _ => hcovered e he⟩
    | @memberFails before after entry fault hsplit hbefore hfails =>
        have hitem : Settles W (member (check host) (.dict others) false entry) (.error fault) :=
          (member_settles_error_iff hw (hsettled entry (by simp [hsplit]))).mpr hfails
        exact .inl ⟨error_ne_pass fault, members_settles_of_split hw hsettled hsplit
          (hlax hsplit hbefore) hitem (error_ne_pass fault)⟩
    | @listingFails fault hpasses hlisting =>
        refine .inl ⟨error_ne_pass fault, (members_settles_iff hw hsettled).mpr (.inr ⟨?_, ?_⟩)⟩
        · exact (forall_lax_iff hw hsettled fun _ h => h).mpr hpasses
        · rw [hlisting]
          rfl
    | @presenceFails before after entry fault hpasses hlisting hsplit hbefore hkey =>
        refine .inr ⟨⟨hpasses, hlisting⟩, .inl ⟨error_ne_pass fault, ?_⟩⟩
        exact required_settles_of_split hw hown hsplit hbefore (by rw [hkey]; rfl)
          (error_ne_pass fault)

/-- A strict pass over members that a lax one has let through can only tell a key that is
neither declared nor covered. -/
theorem members_strict_of_lax {shape : Value} {w₁ w₂ w₃ : World σ}
    (hsettled : MembersSettled host W shape v) (hw : W w) (hw₂ : W w₂)
    (hlax : (members (check host) shape v false).startedIn w = (.ok none, w₁))
    (hstrict : (members (check host) shape v true).startedIn w₂ = (.ok (some problem), w₃)) :
    ∃ key, problem = .illegalExtraKey key := by
  obtain ⟨before, entry, after, hmembers, -, hrejected⟩ := members_mismatch hsettled hw₂ hstrict
  have hmem : entry ∈ v.listing.members := by simp [hmembers]
  cases hrejected with
  | item htold hrejects =>
      obtain ⟨haccepts, -, -⟩ := members_pass hsettled hw hlax
      have haccepted := haccepts entry hmem _ htold.assigns
      exact absurd (hrejects.unique hw haccepted) (mismatch_ne_pass _)
  | extra => exact ⟨entry.1, rfl⟩

/-- The check of an object with optional keys ends as its members, its required keys and the
keys of its members tell, and the last pass over them only tells undeclared keys. -/
theorem optional_object_ends {m m' : Nat} {k k' : MappingKind}
    {entries optional : List (Value × Value)}
    (hd : Schema.withOptional (.mapping m k entries) (.mapping m' k' optional) = .ok d)
    (hpure : Pure host W d v) (hv : v.isObject = true) (hw : W w) :
    (((check host d v).startedIn w).1 = answer ↔
      ObjectEnds host W (Value.collectEntries entries)
        (Value.mergeEntries (Value.collectEntries entries) optional) v answer) ∧
    ∀ w₁ w₂ w₃ problem,
      (members (check host) (.dict (Value.mergeEntries (Value.collectEntries entries) optional))
          v false).startedIn w = (.ok none, w₁) →
      (required (.dict (Value.collectEntries entries)) v).startedIn w₁ = (.ok none, w₂) →
      (members (check host) (.dict (Value.mergeEntries (Value.collectEntries entries) optional))
          v true).startedIn w₂ = (.ok (some problem), w₃) →
      ∃ key, problem = .illegalExtraKey key := by
  obtain ⟨hentries, rfl⟩ := withOptional_eq_ok_iff.mp hd
  have hdemand : (Schema.optionalOf entries optional).demand =
      .optional (Value.collectEntries entries)
        (Value.mergeEntries (Value.collectEntries entries) optional) := rfl
  have hown : ∀ e ∈ Value.collectEntries entries, e.1.isWildcard = false :=
    Value.forall_key_mergeEntries (fun key => key.isWildcard = false) (by simp) hentries
  have hsettled := (Keyed.optional hdemand hv).settled hpure
  constructor
  · rw [← (check_settled hpure).settles_iff hw, check_of_optional hdemand hv]
    exact optionalObject_settles_iff hw hown hsettled
  · intro w₁ w₂ w₃ problem hlax hrequired hstrict
    obtain ⟨-, -, hw₁⟩ := members_pass hsettled hw hlax
    obtain ⟨-, rfl⟩ := required_pass hrequired
    exact members_strict_of_lax hsettled hw hw₁ hlax hstrict

/-- A rejected member is told, though one key is missing and another one, which comes
earlier, is not declared. -/
theorem optional_object_ends_rejected :
    Schema.withOptional (.dict [(.text "a", Schema.ofFamily .number)])
        (.dict [(.text "b", textSchema)]) =
      .ok (Schema.optionalOf [(.text "a", Schema.ofFamily .number)] [(.text "b", textSchema)]) ∧
    ObjectEnds agreeable (fun w => w.cached = some .standard)
      [(.text "a", Schema.ofFamily .number)]
      [(.text "a", Schema.ofFamily .number), (.text "b", textSchema)]
      (.dict [(.text "x", .int 1), (.text "b", .int 2)])
      (.ok (some (.objectError (.incorrectType textSchema (.int 2)) (.text "b")))) := by
  have hd : Schema.withOptional (.dict [(.text "a", Schema.ofFamily .number)])
        (.dict [(.text "b", textSchema)]) =
      .ok (Schema.optionalOf [(.text "a", Schema.ofFamily .number)] [(.text "b", textSchema)]) :=
    withOptional_eq_ok_iff.mpr ⟨by decide, rfl⟩
  exact ⟨hd, (optional_object_ends (w := calm) hd (agreeable_pure _ _) rfl rfl).1.mp rfl⟩

/-- Objects with no required keys that hold texts under any others. -/
def textsObject : Value := Schema.optionalOf [] [(.wildcard, textSchema)]

theorem textsObject_fails {i : Int} (hlong : 10 ^ Number.maxDigits ≤ i.natAbs) :
    ((check agreeable textsObject (keyedBy i)).startedIn calm).1 = .error .digitLimit := by
  let W : World Unit → Prop := fun w => w.cached = some .standard
  have hrejects : Rejects agreeable W textSchema (.int 1) (.incorrectType textSchema (.int 1)) :=
    fun w hw => ⟨w, hw, rfl⟩
  have hmembers : (keyedBy i).listing.members = [] ++ (.int i, .int 1) :: [] := rfl
  have hends : ObjectEnds agreeable W [] [(.wildcard, textSchema)] (keyedBy i)
      (.error .digitLimit) :=
    .memberFails hmembers (by simp)
      (.untold (textsSchema_covers i) hrejects (plain_of_long hlong))
  have hsettled : MembersSettled agreeable W textsSchema (keyedBy i) :=
    membersSettled_of_items fun e _ x => agreeable_pure e.2 x
  have hw : W calm := rfl
  have hsettles : Settles W (optionalObject (check agreeable) [] [(.wildcard, textSchema)]
      (keyedBy i)) (.error .digitLimit) :=
    (optionalObject_settles_iff hw (by simp) hsettled).mpr hends
  have hcheck : check agreeable textsObject (keyedBy i) =
      optionalObject (check agreeable) [] [(.wildcard, textSchema)] (keyedBy i) :=
    check_of_optional rfl rfl
  obtain ⟨w', -, hrun⟩ := hsettles calm hw
  rw [hcheck, hrun]

/-- A covered member that is rejected need not be told: where its key has no text, the check
fails instead. -/
theorem rejected_member_untold :
    Schema.withOptional (.dict []) (.dict [(.wildcard, textSchema)]) = .ok textsObject ∧
      (keyedBy (10 ^ 5000 : Nat)).isObject = true ∧
      (keyedBy (10 ^ 5000 : Nat)).listing.members = [(.int (10 ^ 5000 : Nat), .int 1)] ∧
      (Value.dict [(.wildcard, textSchema)]).Covers (.int (10 ^ 5000 : Nat)) textSchema ∧
      Pure agreeable (fun w => w.cached = some .standard) textsObject
        (keyedBy (10 ^ 5000 : Nat)) ∧
      Rejects agreeable (fun w => w.cached = some .standard) textSchema (.int 1)
        (.incorrectType textSchema (.int 1)) ∧
      ((check agreeable textsObject (keyedBy (10 ^ 5000 : Nat))).startedIn calm).1 =
        .error .digitLimit := by
  have hlong : 10 ^ Number.maxDigits ≤ ((10 ^ 5000 : Nat) : Int).natAbs :=
    le_natAbs_pow (n := 5000) (by decide)
  refine ⟨withOptional_eq_ok_iff.mpr ⟨by simp, rfl⟩, rfl, rfl, textsSchema_covers _,
    agreeable_pure _ _, ?_, textsObject_fails hlong⟩
  exact fun w hw => ⟨w, hw, rfl⟩

end Check

end ShapeCheck
