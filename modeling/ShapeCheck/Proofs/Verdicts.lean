import ShapeCheck.Proofs.Purity
import ShapeCheck.Proofs.Visits

/-!
# What a pass tells

A pass over elements, members or keys that succeeds tells that all of them pass, and one
that ends in a mismatch tells which of them is the first that does not.  With pure
predicates this holds of every check of them, and not only of those that the pass made.
-/

namespace ShapeCheck.Check

open Run

variable {σ : Type} {host : Host σ} {W : World σ → Prop} {d v schema declared shape : Value}
  {strict : Bool} {w w' : World σ} {problem : Problem}

/-- A value has every key that `declared` declares, the wildcard aside. -/
def HasDeclared (v declared : Value) : Prop :=
  ∀ entry ∈ declared.listing.members, entry.1.isWildcard = false → v.hasKey entry.1 = .ok true

/-- A shape has a schema for a key. -/
def HasSchema (shape key : Value) : Prop := ∃ schema, shape.Assigns key schema

/-- If a shape has a schema for the key of a member, this accepts what is held there. -/
def MemberAccepted (host : Host σ) (W : World σ → Prop) (shape : Value)
    (entry : Value × Value) : Prop :=
  ∀ schema, shape.Assigns entry.1 schema → Accepts host W schema entry.2

/-- The members of a value that have a schema have settled checks. -/
def MembersSettled (host : Host σ) (W : World σ → Prop) (shape v : Value) : Prop :=
  ∀ entry ∈ v.listing.members, ∀ schema, shape.Assigns entry.1 schema →
    Settled W (check host schema entry.2)

/-! ## Answers and tests -/

theorem ofAnswer_eq_none_iff {answer : Value} :
    Outcome.ofAnswer answer = none ↔ answer.isTrue = true := by
  simp [Outcome.ofAnswer]

theorem ofBool_eq_none_iff {accepted : Bool} {problem : Problem} :
    Outcome.ofBool accepted problem = none ↔ accepted = true := by
  simp [Outcome.ofBool]

theorem ofAnswer_eq_some_iff {answer : Value} :
    Outcome.ofAnswer answer = some problem ↔
      answer.isTrue = false ∧ problem = .checkerFailed answer.asText? := by
  cases h : answer.isTrue <;> simp [Outcome.ofAnswer, h, @eq_comm _ problem]

theorem ofBool_eq_some_iff {accepted : Bool} {refused : Problem} :
    Outcome.ofBool accepted refused = some problem ↔ accepted = false ∧ problem = refused := by
  cases accepted <;> simp [Outcome.ofBool, @eq_comm _ problem]

/-! ## Elements and values -/

section

variable {items : List Value}

theorem split_of_zipIdx_split {before after : List (Value × Nat)} {entry : Value × Nat}
    (h : items.zipIdx = before ++ entry :: after) :
    items = before.map Prod.fst ++ entry.1 :: after.map Prod.fst ∧
      entry.2 = before.length := by
  constructor
  · have hfst := congrArg (List.map Prod.fst) h
    rwa [List.zipIdx_map_fst, List.map_append, List.map_cons] at hfst
  · have hat : items.zipIdx[before.length]? = some entry := by
      rw [h, List.getElem?_append_right (Nat.le_refl _), Nat.sub_self]
      rfl
    rw [List.getElem?_zipIdx] at hat
    obtain ⟨item, -, rfl⟩ := Option.map_eq_some_iff.mp hat
    exact Nat.zero_add _

theorem elements_settled (hsettled : ∀ item ∈ items, Settled W (check host schema item)) :
    ∀ entry ∈ items.zipIdx, Settled W (element (check host) schema entry) := by
  intro entry hentry
  exact (hsettled entry.1 (List.fst_mem_of_mem_zipIdx hentry)).bind_pure _

theorem elements_pass (hsettled : ∀ item ∈ items, Settled W (check host schema item))
    (hw : W w) (hrun : (elements (check host) schema items).startedIn w = (.ok none, w')) :
    ∀ item ∈ items, Accepts host W schema item := by
  intro item hitem
  obtain ⟨i, hi⟩ := List.getElem?_of_mem hitem
  obtain ⟨hall, -⟩ := settles_of_firstMismatch_pass (elements_settled hsettled) hw hrun
  have hpass := hall (item, i) (List.mk_mem_zipIdx_iff_getElem?.mpr hi)
  exact (hsettled item hitem).pass_of_wrapped hw hpass

/-- A rejected sequence has a first element that is rejected. -/
theorem elements_mismatch (hsettled : ∀ item ∈ items, Settled W (check host schema item))
    (hw : W w)
    (hrun : (elements (check host) schema items).startedIn w = (.ok (some problem), w')) :
    ∃ before item after inner, items = before ++ item :: after ∧
      (∀ earlier ∈ before, Accepts host W schema earlier) ∧
      Rejects host W schema item inner ∧ problem = .arrayError inner before.length := by
  rw [elements, firstMismatch_eq_iff (mismatch_ne_pass problem)] at hrun
  obtain ⟨entry, w₁, hreaches, hentry⟩ := hrun
  have hmem := List.fst_mem_of_mem_zipIdx hreaches.mem
  obtain ⟨before, after, hentries, hbefore, hw₁⟩ :=
    hreaches.settles (elements_settled hsettled) hw
  obtain ⟨hitems, hposition⟩ := split_of_zipIdx_split hentries
  obtain ⟨outcome, hitem, houtcome⟩ := bind_pure_eq_ok_iff.mp hentry
  obtain ⟨inner, rfl, rfl⟩ := Option.map_eq_some_iff.mp houtcome
  have hrejects := ((hsettled entry.1 hmem).settles hw₁ hitem).1
  refine ⟨before.map Prod.fst, entry.1, after.map Prod.fst, inner, hitems, ?_, hrejects, ?_⟩
  · intro earlier hearlier
    obtain ⟨first, hfirst, rfl⟩ := List.mem_map.mp hearlier
    have hlisted : first.1 ∈ items := by
      rw [hitems]
      exact List.mem_append_left _ hearlier
    exact (hsettled first.1 hlisted).pass_of_wrapped hw (hbefore first hfirst)
  · rw [hposition, List.length_map]

theorem values_settled
    (hsettled : ∀ entry ∈ v.listing.members, Settled W (check host schema entry.2)) :
    ∀ entry ∈ v.listing.members, Settled W (memberValue (check host) schema entry) := by
  intro entry hentry
  exact (hsettled entry hentry).bind_pure _

theorem values_pass
    (hsettled : ∀ entry ∈ v.listing.members, Settled W (check host schema entry.2))
    (hw : W w) (hrun : (values (check host) schema v).startedIn w = (.ok none, w')) :
    ∀ entry ∈ v.listing.members, Accepts host W schema entry.2 := by
  intro entry hentry
  rw [values, eachMember_eq_ok_none_iff] at hrun
  obtain ⟨hall, -⟩ := settles_of_firstMismatch_pass (values_settled hsettled) hw hrun.1
  exact (hsettled entry hentry).pass_of_wrapped hw (hall entry hentry)

/-- A rejected record has a first member that is rejected. -/
theorem values_mismatch
    (hsettled : ∀ entry ∈ v.listing.members, Settled W (check host schema entry.2))
    (hw : W w)
    (hrun : (values (check host) schema v).startedIn w = (.ok (some problem), w')) :
    ∃ before entry after inner, v.listing.members = before ++ entry :: after ∧
      (∀ earlier ∈ before, Accepts host W schema earlier.2) ∧
      Rejects host W schema entry.2 inner ∧ problem = .recordError inner entry.1 := by
  obtain ⟨entry, w₁, hreaches, hentry⟩ := eachMember_eq_mismatch_iff.mp hrun
  have hmem := hreaches.mem
  obtain ⟨before, after, hmembers, hbefore, hw₁⟩ :=
    hreaches.settles (values_settled hsettled) hw
  obtain ⟨outcome, hitem, houtcome⟩ := bind_pure_eq_ok_iff.mp hentry
  obtain ⟨inner, rfl, rfl⟩ := Option.map_eq_some_iff.mp houtcome
  have hrejects := ((hsettled entry hmem).settles hw₁ hitem).1
  refine ⟨before, entry, after, inner, hmembers, ?_, hrejects, rfl⟩
  intro earlier hearlier
  have hlisted : earlier ∈ v.listing.members := by
    rw [hmembers]
    exact List.mem_append_left _ hearlier
  exact (hsettled earlier hlisted).pass_of_wrapped hw (hbefore earlier hearlier)

end

/-! ## Alternatives -/

theorem alternatives_pass {schemas : List Value}
    (hsettled : ∀ schema ∈ schemas, Settled W (check host schema v)) (hw : W w)
    (hrun : (alternatives (check host) schemas v).startedIn w = (.ok none, w')) :
    ∃ schema ∈ schemas, Accepts host W schema v := by
  obtain ⟨errors, hrejections, herrors⟩ := bind_pure_eq_ok_iff.mp hrun
  rw [Option.map_eq_none_iff] at herrors
  exact settles_of_rejections_none hsettled hw (herrors ▸ hrejections)

/-- A value that a union rejects is rejected by every alternative. -/
theorem alternatives_mismatch {schemas : List Value}
    (hsettled : ∀ schema ∈ schemas, Settled W (check host schema v)) (hw : W w)
    (hrun : (alternatives (check host) schemas v).startedIn w = (.ok (some problem), w')) :
    ∃ errors, problem = .unionNoMatch errors ∧
      List.Forall₂ (fun schema error => Rejects host W schema v error) schemas errors := by
  obtain ⟨outcome, hrejections, houtcome⟩ := bind_pure_eq_ok_iff.mp hrun
  obtain ⟨errors, rfl, rfl⟩ := Option.map_eq_some_iff.mp houtcome
  exact ⟨errors, rfl, settles_of_rejections_some hsettled hw hrejections⟩

theorem exists_of_forall₂ {α β : Type} {R : α → β → Prop} {as : List α} {bs : List β} {a : α}
    (h : List.Forall₂ R as bs) (ha : a ∈ as) : ∃ b ∈ bs, R a b := by
  induction h with
  | nil => cases ha
  | cons hhead _ ih =>
      rcases List.mem_cons.mp ha with rfl | ha
      · exact ⟨_, List.mem_cons_self, hhead⟩
      · obtain ⟨b, hb, hab⟩ := ih ha
        exact ⟨b, List.mem_cons_of_mem _ hb, hab⟩

/-! ## Declared keys -/

/-- Asking for the declared keys changes nothing. -/
theorem required_pass (hrun : (required declared v).startedIn w = (.ok none, w')) :
    HasDeclared v declared ∧ w' = w := by
  rw [required, eachMember_eq_ok_none_iff] at hrun
  obtain ⟨hall, hw'⟩ := settles_of_firstMismatch_pass (W := (· = w))
    (fun entry _ => present_settled entry) rfl hrun.1
  refine ⟨?_, hw'⟩
  intro entry hentry
  obtain ⟨w₁, -, hpresent⟩ := hall entry hentry w rfl
  exact (present_eq_pass_iff.mp hpresent).1

/-- A value that lacks a declared key is told the first one. -/
theorem required_mismatch
    (hrun : (required declared v).startedIn w = (.ok (some problem), w')) :
    ∃ before entry after, declared.listing.members = before ++ entry :: after ∧
      (∀ earlier ∈ before, earlier.1.isWildcard = false → v.hasKey earlier.1 = .ok true) ∧
      entry.1.isWildcard = false ∧ v.hasKey entry.1 = .ok false ∧
      problem = .requiredKeyMissing entry.1 := by
  obtain ⟨entry, w₁, hreaches, hentry⟩ := eachMember_eq_mismatch_iff.mp hrun
  obtain ⟨before, after, hmembers, hbefore, rfl⟩ := hreaches.settles (W := (· = w))
    (fun entry _ => present_settled entry) rfl
  obtain ⟨hwildcard, hkey, -, hproblem⟩ := present_eq_mismatch_iff.mp hentry
  refine ⟨before, entry, after, hmembers, ?_, hwildcard, hkey, hproblem⟩
  intro earlier hearlier
  obtain ⟨w₂, -, hpresent⟩ := hbefore earlier hearlier w₁ rfl
  exact (present_eq_pass_iff.mp hpresent).1

/-! ## Members -/

theorem member_pass {entry : Value × Value}
    (hsettled : ∀ schema, shape.Assigns entry.1 schema → Settled W (check host schema entry.2))
    (hw : W w) (h : Settles W (member (check host) shape strict entry) (.ok none)) :
    MemberAccepted host W shape entry ∧ (strict = true → HasSchema shape entry.1) := by
  obtain ⟨w₁, -, hmember⟩ := h w hw
  rcases member_eq_pass_iff.mp hmember with ⟨schema, hkey, hitem⟩ | ⟨hleaves, hlax, -⟩
  · refine ⟨?_, fun _ => ⟨schema, hkey⟩⟩
    intro schema' hkey'
    obtain rfl := hkey'.unique hkey
    exact ((hsettled schema' hkey').settles hw hitem).1
  · refine ⟨fun schema hkey => absurd hkey hleaves.not_assigns, ?_⟩
    intro hstrict
    exact absurd (hstrict.symm.trans hlax) Bool.true_eq_false.mp

theorem members_pass (hsettled : MembersSettled host W shape v) (hw : W w)
    (hrun : (members (check host) shape v strict).startedIn w = (.ok none, w')) :
    (∀ entry ∈ v.listing.members, MemberAccepted host W shape entry) ∧
      (strict = true → ∀ entry ∈ v.listing.members, HasSchema shape entry.1) ∧ W w' := by
  rw [members, eachMember_eq_ok_none_iff] at hrun
  obtain ⟨hall, hw'⟩ := settles_of_firstMismatch_pass
    (fun entry hentry => member_settled (hsettled entry hentry)) hw hrun.1
  have hpass := fun entry hentry => member_pass (hsettled entry hentry) hw (hall entry hentry)
  exact ⟨fun entry hentry => (hpass entry hentry).1,
    fun hstrict entry hentry => (hpass entry hentry).2 hstrict, hw'⟩

/-- The schema that a shape has for a key, and the key under which a mismatch with it is
told. -/
inductive ToldAs (shape key : Value) : (schema told : Value) → Prop
  | held {schema : Value} (hkey : shape.Holds key schema) : ToldAs shape key schema key
  | covered {schema : Value} {plain : String} (hkey : shape.Covers key schema)
      (hplain : key.plain = .ok plain) :
      ToldAs shape key schema (.text (plain ++ " -> " ++ Symbol.wildcardText))

theorem ToldAs.assigns {key told : Value} (h : ToldAs shape key schema told) :
    shape.Assigns key schema := by
  cases h with
  | held hkey => exact .inl hkey
  | covered hkey => exact .inr hkey

/-- The mismatch that the member of a value ends in when it is tested against a shape. -/
inductive MemberRejected (host : Host σ) (W : World σ → Prop) (shape : Value) (strict : Bool)
    (entry : Value × Value) : Problem → Prop
  | item {schema told : Value} {inner : Problem} (htold : ToldAs shape entry.1 schema told)
      (hrejects : Rejects host W schema entry.2 inner) :
      MemberRejected host W shape strict entry (.objectError inner told)
  | extra (hkey : shape.Leaves entry.1) (hstrict : strict = true) :
      MemberRejected host W shape strict entry (.illegalExtraKey entry.1)

theorem members_mismatch (hsettled : MembersSettled host W shape v) (hw : W w)
    (hrun : (members (check host) shape v strict).startedIn w = (.ok (some problem), w')) :
    ∃ before entry after, v.listing.members = before ++ entry :: after ∧
      (∀ earlier ∈ before, MemberAccepted host W shape earlier ∧
        (strict = true → HasSchema shape earlier.1)) ∧
      MemberRejected host W shape strict entry problem := by
  obtain ⟨entry, w₁, hreaches, hentry⟩ := eachMember_eq_mismatch_iff.mp hrun
  have hmem := hreaches.mem
  obtain ⟨before, after, hmembers, hbefore, hw₁⟩ := hreaches.settles
    (fun entry hentry => member_settled (hsettled entry hentry)) hw
  refine ⟨before, entry, after, hmembers, ?_, ?_⟩
  · intro earlier hearlier
    have hlisted : earlier ∈ v.listing.members := by
      rw [hmembers]
      exact List.mem_append_left _ hearlier
    exact member_pass (hsettled earlier hlisted) hw (hbefore earlier hearlier)
  · rcases member_eq_mismatch_iff.mp hentry with
      ⟨schema, inner, hkey, hitem, rfl⟩ | ⟨schema, inner, plain, hkey, hitem, hplain, rfl⟩ |
        ⟨hkey, hstrict, -, rfl⟩
    · have hsettled := hsettled entry hmem schema (.inl hkey)
      exact .item (.held hkey) (hsettled.settles hw₁ hitem).1
    · have hsettled := hsettled entry hmem schema (.inr hkey)
      exact .item (.covered hkey hplain) (hsettled.settles hw₁ hitem).1
    · exact .extra hkey hstrict

/-! ## Values that are tested by keys -/

/-- Only objects are accepted by the schema of one. -/
theorem isObject_of_accepted {own others : List (Value × Value)}
    (hdemand : d.demand = .optional own others)
    (h : (check host d v).startedIn w = (.ok none, w')) : v.isObject = true := by
  by_contra hnot
  rw [check_eq_meet, hdemand, meet, if_neg hnot] at h
  cases h

theorem Keyed.settled (hkeyed : Keyed d v declared shape) (hpure : Pure host W d v) :
    MembersSettled host W shape v := by
  intro entry hentry schema hkey
  exact check_settled (hpure.next (.member hkeyed hentry hkey))

/-- An accepted value that is tested by keys has the declared ones, and a schema for each
of its own that accepts what it holds there. -/
theorem Keyed.accepts (hkeyed : Keyed d v declared shape) (hpure : Pure host W d v) (hw : W w)
    (hrun : (check host d v).startedIn w = (.ok none, w')) :
    HasDeclared v declared ∧ ∀ entry ∈ v.listing.members,
      HasSchema shape entry.1 ∧ MemberAccepted host W shape entry := by
  have hsettled := hkeyed.settled hpure
  cases hkeyed with
  | shape hdemand hvalue =>
      rw [check_of_shape hdemand hvalue, exactShape_eq_ok_none_iff] at hrun
      obtain ⟨w₁, hrequired, hmembers⟩ := hrun
      obtain ⟨hdeclared, rfl⟩ := required_pass hrequired
      obtain ⟨haccepts, hcovered, -⟩ := members_pass hsettled hw hmembers
      exact ⟨hdeclared, fun entry hentry => ⟨hcovered rfl entry hentry, haccepts entry hentry⟩⟩
  | optional hdemand hvalue =>
      rw [check_of_optional hdemand hvalue, optionalObject_eq_ok_none_iff] at hrun
      obtain ⟨w₁, hlax, w₂, hrequired, hstrict⟩ := hrun
      obtain ⟨-, -, hw₁⟩ := members_pass hsettled hw hlax
      obtain ⟨hdeclared, rfl⟩ := required_pass hrequired
      obtain ⟨haccepts, hcovered, -⟩ := members_pass hsettled hw₁ hstrict
      exact ⟨hdeclared, fun entry hentry => ⟨hcovered rfl entry hentry, haccepts entry hentry⟩⟩

/-- A rejected value that is tested by keys lacks a declared one, or is rejected in a pass
over its own. -/
theorem Keyed.mismatch (hkeyed : Keyed d v declared shape) (hpure : Pure host W d v) (hw : W w)
    (hrun : (check host d v).startedIn w = (.ok (some problem), w')) :
    (∃ w₁, (required declared v).startedIn w₁ = (.ok (some problem), w')) ∨
      ∃ strict w₁, W w₁ ∧
        (members (check host) shape v strict).startedIn w₁ = (.ok (some problem), w') := by
  have hsettled := hkeyed.settled hpure
  cases hkeyed with
  | shape hdemand hvalue =>
      rw [check_of_shape hdemand hvalue, exactShape_eq_iff (mismatch_ne_pass problem)] at hrun
      rcases hrun with hrequired | ⟨w₁, hrequired, hmembers⟩
      · exact .inl ⟨w, hrequired⟩
      · obtain ⟨-, rfl⟩ := required_pass hrequired
        exact .inr ⟨true, w₁, hw, hmembers⟩
  | optional hdemand hvalue =>
      rw [check_of_optional hdemand hvalue,
        optionalObject_eq_iff (mismatch_ne_pass problem)] at hrun
      rcases hrun with hlax | ⟨w₁, hlax, hrequired | ⟨w₂, hrequired, hstrict⟩⟩
      · exact .inr ⟨false, w, hw, hlax⟩
      · exact .inl ⟨w₁, hrequired⟩
      · obtain ⟨-, -, hw₁⟩ := members_pass hsettled hw hlax
        obtain ⟨-, rfl⟩ := required_pass hrequired
        exact .inr ⟨true, w₂, hw₁, hstrict⟩

/-! ## Surroundings along a check -/

section

variable {q r : Point σ}

theorem Pass.stays {shape : Value} {strict : Bool} {w₁ : World σ}
    (h : Pass host q shape strict w₁) (hpure : Pure host W q.schema q.value)
    (hw : W q.world) : W w₁ := by
  cases h with
  | exact hdemand hvalue hrequired =>
      obtain ⟨-, rfl⟩ := required_pass hrequired
      exact hw
  | declared => exact hw
  | all hdemand hvalue hlax hrequired =>
      have hsettled := (Keyed.optional hdemand hvalue).settled hpure
      obtain ⟨-, -, hw₁⟩ := members_pass hsettled hw hlax
      obtain ⟨-, rfl⟩ := required_pass hrequired
      exact hw₁

theorem Goes.stays (h : Goes host q r) (hpure : Pure host W q.schema q.value)
    (hw : W q.world) : W r.world := by
  cases h with
  | element hdemand hreaches =>
      obtain ⟨-, -, -, -, hw₁⟩ := hreaches.settles
        (fun entry hentry => (check_settled (hpure.next
          (.element hdemand (List.fst_mem_of_mem_zipIdx hentry)))).bind_pure _) hw
      exact hw₁
  | value hdemand hvalue hreaches =>
      obtain ⟨-, -, -, -, hw₁⟩ := hreaches.settles
        (fun entry hentry => (check_settled (hpure.next
          (.value hdemand hvalue hentry))).bind_pure _) hw
      exact hw₁
  | alternative hdemand hbefore =>
      have hsettled := rejections_settled fun schema hschema =>
        check_settled (hpure.next (.alternative hdemand (List.mem_append_left _ hschema)))
      exact (hsettled.settles hw hbefore).2
  | member hpass hreaches hkey =>
      obtain ⟨declared, hkeyed⟩ := hpass.keyed
      obtain ⟨-, -, -, -, hw₂⟩ := hreaches.settles
        (fun entry hentry => member_settled (hkeyed.settled hpure entry hentry))
        (hpass.stays hpure hw)
      exact hw₂

/-- What a check visits, it visits in surroundings of `W`. -/
theorem Visits.stays (h : Visits host q r) (hpure : Pure host W q.schema q.value)
    (hw : W q.world) : Pure host W r.schema r.value ∧ W r.world := by
  induction h with
  | refl => exact ⟨hpure, hw⟩
  | tail _ hgoes ih => exact ⟨ih.1.next hgoes.next, hgoes.stays ih.1 ih.2⟩

end

end ShapeCheck.Check
