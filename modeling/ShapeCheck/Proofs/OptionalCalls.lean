import Mathlib.Data.List.Perm.Basic
import ShapeCheck.Proofs.OptionalOutcomes
import ShapeCheck.Proofs.Recordings

/-!
# The calls of a check of an object with optional keys

Such a check tests the members of the value twice: a first pass lets undeclared keys
through, and a strict pass over the same members comes after the required keys.  So the
predicates behind the members are all asked twice if the value is accepted, and once if a
required key is missing; an undeclared key cuts the second round short, and a rejected item
the first.

Nesting multiplies the rounds: a predicate that stands `n` objects deep is asked `2 ^ n`
times about each item that is found `n` levels down.  That need not be exactly one item.  An
object accepts a value without an optional key, and one that only inherits a required key,
and its wildcard covers any number of keys.
-/

namespace ShapeCheck

namespace Value

variable {shape key schema d : Value}

/-- The schema that a shape has for a key: its own, or else that of the wildcard. -/
def schemaFor? (shape key : Value) : Option Value :=
  match shape.hasKey key with
  | .ok true => (shape.get key).toOption
  | .ok false =>
    match shape.hasKey wildcard with
    | .ok true => (shape.get wildcard).toOption
    | _ => none
  | .error _ => none

theorem schemaFor_of_assigns (h : shape.Assigns key schema) :
    shape.schemaFor? key = some schema := by
  rcases h with ⟨hkey, hget⟩ | ⟨hkey, hwildcard, hget⟩
  · simp [schemaFor?, hkey, hget, Except.toOption]
  · simp [schemaFor?, hkey, hwildcard, hget, Except.toOption]

theorem schemaFor_of_leaves (h : shape.Leaves key) : shape.schemaFor? key = none := by
  simp [schemaFor?, h.1, h.2]

theorem schemaFor_of_error {fault : Fault} (h : shape.hasKey key = .error fault) :
    shape.schemaFor? key = none := by
  simp [schemaFor?, h]

/-- A mapping of one schema has no other for any key. -/
theorem eq_of_assigns_single {own : Value} (h : (dict [(own, d)]).Assigns key schema) :
    schema = d := by
  have hsingle {key : Value} (h : (dict [(own, d)]).Holds key schema) : schema = d := by
    obtain ⟨e, he, rfl⟩ := exists_entryAt_of_holds h
    have hmem := List.mem_of_find?_eq_some he
    rw [List.mem_singleton.mp hmem]
  rcases h with h | h
  · exact hsingle h
  · exact hsingle h.2

/-- The items that are found a number of levels down in a value. -/
def itemsAt : Nat → Value → List Value
  | 0, v => [v]
  | n + 1, v => v.listing.members.flatMap fun e => itemsAt n e.2

end Value

namespace Check

open Run

variable {σ : Type} {host : Host σ} {W : World σ → Prop} {d v shape : Value} {strict : Bool}
  {entry : Value × Value} {own others : List (Value × Value)} {w w₀ w' : World σ}
  {outcome : Outcome} {problem : Problem}

/-! ## The calls of a pass -/

/-- The calls of the check of a member against the schema that a shape has for its key. -/
def memberCalls (host : Host σ) (w : World σ) (shape : Value) (entry : Value × Value) :
    List Call :=
  match shape.schemaFor? entry.1 with
  | some schema => recorded (check host schema entry.2) w
  | none => []

theorem memberCalls_of_assigns {schema : Value} (hkey : shape.Assigns entry.1 schema) :
    memberCalls host w shape entry = recorded (check host schema entry.2) w := by
  rw [memberCalls, Value.schemaFor_of_assigns hkey]

theorem memberCalls_of_leaves (hkey : shape.Leaves entry.1) :
    memberCalls host w shape entry = [] := by
  rw [memberCalls, Value.schemaFor_of_leaves hkey]

/-- The members of a value that have a schema have checks that repeat themselves. -/
def MembersRepeat (host : Host σ) (W : World σ → Prop) (shape v : Value) : Prop :=
  ∀ entry ∈ v.listing.members, ∀ schema, shape.Assigns entry.1 schema →
    Repeats W (check host schema entry.2)

theorem MembersRepeat.settled (h : MembersRepeat host W shape v) : MembersSettled host W shape v :=
  fun entry hentry schema hkey => (h entry hentry schema hkey).settled

/-- The test of a member makes the calls of the check of its item, however it ends. -/
theorem member_records (hw : W w)
    (hrepeats : ∀ schema, shape.Assigns entry.1 schema → Repeats W (check host schema entry.2)) :
    ∃ answer, RecordsCalls W (member (check host) shape strict entry) answer
      (memberCalls host w shape entry) := by
  obtain ⟨key, item⟩ := entry
  rcases shape.key_cases key with ⟨schema, hkey⟩ | ⟨schema, hkey⟩ | hkey | ⟨fault, hkey⟩
  · rw [member_of_holds hkey, memberCalls_of_assigns (.inl hkey)]
    exact (hrepeats schema (.inl hkey)).bind_lift hw fun outcome => ⟨_, rfl⟩
  · rw [member_of_covers hkey, memberCalls_of_assigns (.inr hkey)]
    refine (hrepeats schema (.inr hkey)).bind_lift hw fun outcome => ?_
    cases outcome with
    | none => exact ⟨.ok none, rfl⟩
    | some problem =>
        refine ⟨(coveredKey key).map fun told => some (.objectError problem told), ?_⟩
        cases coveredKey key <;> rfl
  · rw [member_of_leaves hkey, memberCalls_of_leaves hkey]
    exact ⟨_, records_lift (.ok _)⟩
  · rw [member_of_error hkey, memberCalls, Value.schemaFor_of_error hkey]
    exact ⟨_, records_lift (.error fault)⟩

section

variable (hrepeats : MembersRepeat host W shape v) (hw₀ : W w₀) (hw : W w)

include hrepeats hw₀ hw

theorem members_calls_pass
    (hrun : (members (check host) shape v strict).startedIn w = (.ok none, w')) :
    w'.calls = w.calls ++ v.listing.members.flatMap (memberCalls host w₀ shape) :=
  calls_of_firstMismatch_pass (fun e he => member_records hw₀ (hrepeats e he)) hw
    (eachMember_eq_ok_none_iff.mp hrun).1

theorem members_calls_stop
    (hrun : (members (check host) shape v strict).startedIn w = (.ok (some problem), w')) :
    ∃ before entry after, v.listing.members = before ++ entry :: after ∧
      (∀ earlier ∈ before, MemberAccepted host W shape earlier ∧
        (strict = true → HasSchema shape earlier.1)) ∧
      MemberRejected host W shape strict entry problem ∧
      w'.calls = w.calls ++ (before ++ [entry]).flatMap (memberCalls host w₀ shape) := by
  have hfirst : (firstMismatch (member (check host) shape strict) v.listing.members).startedIn w =
      (.ok (some problem), w') := by
    rcases (eachMember_eq_iff (mismatch_ne_pass problem)).mp hrun with h | ⟨-, fault, -, hfault⟩
    · exact h
    · cases hfault
  obtain ⟨before, entry, after, hmembers, hbefore, hentry, hcalls⟩ :=
    calls_of_firstMismatch_stop (fun e he => member_records hw₀ (hrepeats e he))
      (mismatch_ne_pass problem) hw hfirst
  have hlisted : ∀ earlier ∈ before, earlier ∈ v.listing.members :=
    fun _ hearlier => hmembers ▸ List.mem_append_left _ hearlier
  refine ⟨before, entry, after, hmembers, ?_, ?_, hcalls⟩
  · intro earlier hearlier
    exact member_pass (hrepeats.settled earlier (hlisted earlier hearlier)) hw
      (hbefore earlier hearlier)
  · have hmem : entry ∈ v.listing.members := by simp [hmembers]
    exact (member_settles_mismatch_iff hw (hrepeats.settled entry hmem)).mp hentry

end

/-! ## The calls of a check -/

/-- The calls that go with each outcome of the check of an object against `others`, the keys
that are required or optional.  The calls of its members make one round. -/
inductive OptionalCalls (host : Host σ) (W : World σ → Prop) (w : World σ) (others v : Value) :
    Outcome → List Call → Prop
  /-- Two rounds. -/
  | accepted :
      OptionalCalls host W w others v none
        (v.listing.members.flatMap (memberCalls host w others) ++
          v.listing.members.flatMap (memberCalls host w others))
  /-- One round. -/
  | missing {key : Value} (hkey : v.hasKey key = .ok false) :
      OptionalCalls host W w others v (some (.requiredKeyMissing key))
        (v.listing.members.flatMap (memberCalls host w others))
  /-- One round, and a second one up to the first key that is not covered. -/
  | extra {before after : List (Value × Value)} {entry : Value × Value}
      (hmembers : v.listing.members = before ++ entry :: after)
      (hbefore : ∀ earlier ∈ before, HasSchema others earlier.1) (hextra : others.Leaves entry.1) :
      OptionalCalls host W w others v (some (.illegalExtraKey entry.1))
        (v.listing.members.flatMap (memberCalls host w others) ++
          before.flatMap (memberCalls host w others))
  /-- A first round up to the first item that is rejected, and including it. -/
  | rejected {before after : List (Value × Value)} {entry : Value × Value} {schema told : Value}
      {inner : Problem} (hmembers : v.listing.members = before ++ entry :: after)
      (hbefore : ∀ earlier ∈ before, MemberAccepted host W others earlier)
      (htold : ToldAs others entry.1 schema told) (hrejects : Rejects host W schema entry.2 inner) :
      OptionalCalls host W w others v (some (.objectError inner told))
        ((before ++ [entry]).flatMap (memberCalls host w others))

/-- The three passes make the calls that go with their outcome. -/
theorem optionalObject_calls (hrepeats : MembersRepeat host W (.dict others) v) (hw₀ : W w₀)
    (hw : W w)
    (hrun : (optionalObject (check host) own others v).startedIn w = (.ok outcome, w')) :
    ∃ calls, OptionalCalls host W w₀ (.dict others) v outcome calls ∧
      w'.calls = w.calls ++ calls := by
  have hsettled := hrepeats.settled
  cases outcome with
  | none =>
      obtain ⟨w₁, hlax, w₂, hrequired, hstrict⟩ := optionalObject_eq_ok_none_iff.mp hrun
      obtain ⟨-, -, hw₁⟩ := members_pass hsettled hw hlax
      obtain ⟨-, rfl⟩ := required_pass hrequired
      have hfirst := members_calls_pass hrepeats hw₀ hw hlax
      have hsecond := members_calls_pass hrepeats hw₀ hw₁ hstrict
      exact ⟨_, .accepted, by rw [hsecond, hfirst, List.append_assoc]⟩
  | some problem =>
      rcases (optionalObject_eq_iff (mismatch_ne_pass problem)).mp hrun with
        hlax | ⟨w₁, hlax, hrequired | ⟨w₂, hrequired, hstrict⟩⟩
      · obtain ⟨before, entry, after, hmembers, hbefore, hentry, hcalls⟩ :=
          members_calls_stop hrepeats hw₀ hw hlax
        cases hentry with
        | item htold hrejects =>
            exact ⟨_, .rejected hmembers (fun e he => (hbefore e he).1) htold hrejects, hcalls⟩
        | extra _ hstrict => cases hstrict
      · have hfirst := members_calls_pass hrepeats hw₀ hw hlax
        obtain ⟨-, entry, -, -, -, -, hmissing, rfl⟩ := required_mismatch hrequired
        obtain ⟨-, rfl⟩ := (required_settled (W := (· = w₁))).settles rfl hrequired
        exact ⟨_, .missing hmissing, hfirst⟩
      · obtain ⟨haccepts, -, hw₁⟩ := members_pass hsettled hw hlax
        obtain ⟨-, rfl⟩ := required_pass hrequired
        have hfirst := members_calls_pass hrepeats hw₀ hw hlax
        obtain ⟨before, entry, after, hmembers, hbefore, hentry, hsecond⟩ :=
          members_calls_stop hrepeats hw₀ hw₁ hstrict
        have hmem : entry ∈ v.listing.members := by simp [hmembers]
        cases hentry with
        | item htold hrejects =>
            have haccepted := haccepts entry hmem _ htold.assigns
            exact absurd (hrejects.unique hw haccepted) (mismatch_ne_pass _)
        | extra hkey =>
            refine ⟨_, .extra hmembers (fun e he => (hbefore e he).2 rfl) hkey, ?_⟩
            rw [hsecond, hfirst, List.flatMap_append, List.flatMap_singleton,
              memberCalls_of_leaves hkey, List.append_nil, List.append_assoc]

theorem Keyed.repeats {declared : Value} (hkeyed : Keyed d v declared shape)
    (hrepeat : Repeatable host W d v) : MembersRepeat host W shape v :=
  fun _ hentry _ hkey => check_repeats (hrepeat.next (.member hkeyed hentry hkey))

theorem check_optional_calls (hdemand : d.demand = .optional own others)
    (hv : v.isObject = true) (hrepeat : Repeatable host W d v) (hw : W w)
    (hrun : ((check host d v).startedIn w).1 = .ok outcome) :
    OptionalCalls host W w (.dict others) v outcome (recorded (check host d v) w) := by
  have hrepeats := (Keyed.optional hdemand hv).repeats hrepeat
  have hcheck : (check host d v).startedIn w = (.ok outcome, _) := Prod.ext hrun rfl
  rw [check_of_optional hdemand hv] at hcheck ⊢
  obtain ⟨calls, hends, hcalls⟩ := optionalObject_calls hrepeats hw hw hcheck
  rwa [recorded_of_calls hcalls]

/-! ## Nested objects -/

/-- A number of objects with one key each, one inside the other around a predicate. -/
inductive Nested (p : Value) : Nat → Value → Prop
  | predicate : Nested p 0 p
  | object {n : Nat} {d d' key : Value} {m m' : Nat} {k k' : MappingKind}
      {entries optional : List (Value × Value)} (hinner : Nested p n d)
      (hd : Schema.withOptional (.mapping m k entries) (.mapping m' k' optional) = .ok d')
      (hkey : Value.mergeEntries (Value.collectEntries entries) optional = [(key, d)]) :
      Nested p (n + 1) d'

theorem flatMap_replicate_perm {α β : Type} (k : Nat) (items : List α) (f : α → List β) :
    (items.flatMap fun a => (List.replicate k (f a)).flatten).Perm
      (List.replicate k (items.flatMap f)).flatten := by
  induction k with
  | zero => simp
  | succ k ih =>
      simp only [List.replicate_succ, List.flatten_cons]
      exact (List.flatMap_append_perm items f _).symm.trans (ih.append_left _)

/-- A predicate of the caller is asked once, about the value itself. -/
theorem recorded_predicate {p : Value} {mark : Nat} {name : Option String}
    {attrs : List (String × Value)} (hp : callee p = .function mark name attrs none) :
    recorded (check host p v) w = [⟨name, v⟩] := by
  have hdemand : p.demand = .predicate := by
    cases p with
    | function | applied | method => rfl
    | decorated bindsClass inner =>
        cases bindsClass with
        | false => rfl
        | true => cases hp
    | _ => cases hp
  apply recorded_of_calls
  rw [check_of_predicate hdemand, bind_startedIn]
  simp only [call, invoke, hp]
  rcases h : (ask host mark name v).startedIn w with ⟨fault | answer, w₁⟩ <;>
    exact (congrArg (·.2.calls) h).symm

/-- A predicate inside of `n` objects is asked `2 ^ n` times about each item that is found
`n` levels down in a value that is accepted. -/
theorem Nested.calls_perm {n : Nat} {p : Value} {mark : Nat} {name : Option String}
    {attrs : List (String × Value)} (hnested : Nested p n d)
    (hp : callee p = .function mark name attrs none) (hrepeat : Repeatable host W d v) (hw : W w)
    (haccepts : ((check host d v).startedIn w).1 = .ok none) :
    (recorded (check host d v) w).Perm
      (List.replicate (2 ^ n) ((v.itemsAt n).map (Call.mk name))).flatten := by
  induction hnested generalizing v with
  | predicate =>
      rw [recorded_predicate hp]
      simp [Value.itemsAt]
  | @object n d d' key m m' k k' entries optional _ hd hkey ih =>
      obtain ⟨-, rfl⟩ := withOptional_eq_ok_iff.mp hd
      have hdemand : (Schema.optionalOf entries optional).demand =
          .optional (Value.collectEntries entries) [(key, d)] := hkey ▸ rfl
      have hrun : (check host (Schema.optionalOf entries optional) v).startedIn w =
          (.ok none, _) := Prod.ext haccepts rfl
      have hv := isObject_of_accepted hdemand hrun
      have hkeyed := Keyed.optional hdemand hv
      obtain ⟨-, hmembers⟩ := hkeyed.accepts hrepeat.pure hw hrun
      have hround : (v.listing.members.flatMap (memberCalls host w (.dict [(key, d)]))).Perm
          (List.replicate (2 ^ n) ((v.itemsAt (n + 1)).map (Call.mk name))).flatten := by
        rw [Value.itemsAt, List.map_flatMap]
        refine List.Perm.trans (List.Perm.flatMap_left _ fun e he => ?_)
          (flatMap_replicate_perm _ _ _)
        obtain ⟨⟨schema, hassigns⟩, haccepted⟩ := hmembers e he
        rw [memberCalls_of_assigns hassigns]
        obtain rfl := Value.eq_of_assigns_single hassigns
        have hnext := hrepeat.next (.member hkeyed he hassigns)
        obtain ⟨w₁, -, hitem⟩ := haccepted _ hassigns w hw
        exact ih hnext (by rw [hitem])
      have hcalls := check_optional_calls hdemand hv hrepeat hw haccepts
      generalize recorded (check host _ v) w = calls at hcalls ⊢
      cases hcalls with
      | accepted =>
          rw [Nat.pow_succ, Nat.mul_two, ← List.replicate_append_replicate, List.flatten_append]
          exact hround.append hround

/-- The calls that a check of an object with optional keys makes go with its outcome as told
by `OptionalCalls`.  Consequently a predicate inside of `n` such objects with one key each is
asked `2 ^ n` times about each item that is found `n` levels down in an accepted value; if
that is one item, it is asked about it `2 ^ n` times and about nothing else. -/
theorem optional_calls_doubled (host : Host σ) (W : World σ → Prop) :
    (∀ (m m' : Nat) (k k' : MappingKind) (entries optional : List (Value × Value)) (d v : Value)
        (w : World σ) (outcome : Outcome),
      Schema.withOptional (.mapping m k entries) (.mapping m' k' optional) = .ok d →
        v.isObject = true → Repeatable host W d v → W w →
        ((check host d v).startedIn w).1 = .ok outcome →
        OptionalCalls host W w
          (.dict (Value.mergeEntries (Value.collectEntries entries) optional)) v outcome
          (recorded (check host d v) w)) ∧
      ∀ (n : Nat) (p d v : Value) (w : World σ) (mark : Nat) (name : Option String)
        (attrs : List (String × Value)),
        Nested p n d → callee p = .function mark name attrs none → Repeatable host W d v → W w →
        ((check host d v).startedIn w).1 = .ok none →
        (recorded (check host d v) w).Perm
            (List.replicate (2 ^ n) ((v.itemsAt n).map (Call.mk name))).flatten ∧
          ∀ x, v.itemsAt n = [x] →
            recorded (check host d v) w = List.replicate (2 ^ n) ⟨name, x⟩ := by
  constructor
  · intro m m' k k' entries optional d v w outcome hd hv hrepeat hw hrun
    obtain ⟨-, rfl⟩ := withOptional_eq_ok_iff.mp hd
    exact check_optional_calls rfl hv hrepeat hw hrun
  · intro n p d v w mark name attrs hnested hp hrepeat hw haccepts
    have hperm := hnested.calls_perm hp hrepeat hw haccepts
    refine ⟨hperm, fun x hx => List.perm_replicate.mp ?_⟩
    simpa [hx] using hperm

/-- A predicate inside of two objects is asked four times about one item. -/
theorem optional_calls_doubled_twice :
    let p : Value := .function 1 (some "f") [] none
    let inner : Value := Schema.optionalOf [(.text "b", p)] []
    let outer : Value := Schema.optionalOf [] [(.text "a", inner)]
    let v : Value := .dict [(.text "a", .dict [(.text "b", .int 5)])]
    Nested p 2 outer ∧ Repeatable agreeable (fun w => w.cached = some .standard) outer v ∧
      recorded (check agreeable outer v) calm = List.replicate (2 ^ 2) ⟨some "f", .int 5⟩ := by
  intro p inner outer v
  have hd : Schema.withOptional (.dict [(.text "b", p)]) (.dict []) = .ok inner :=
    withOptional_eq_ok_iff.mpr ⟨by decide, rfl⟩
  have hd' : Schema.withOptional (.dict []) (.dict [(.text "a", inner)]) = .ok outer :=
    withOptional_eq_ok_iff.mpr ⟨by simp, rfl⟩
  have houter : Nested p 2 outer := .object (.object .predicate hd rfl) hd' rfl
  have hrepeat := agreeable_repeatable outer v
  have hcalls := (optional_calls_doubled agreeable _).2 2 p outer v calm 1 (some "f") [] houter rfl
    hrepeat rfl rfl
  exact ⟨houter, hrepeat, hcalls.2 _ rfl⟩

/-- A value that has the one required key only by its class is accepted, but the predicate
is not asked about what the class holds there. -/
theorem inherited_key_unasked :
    let p : Value := .function 1 (some "f") [] none
    let d : Value := Schema.optionalOf [(.text "a", p)] []
    let v : Value := .object 0 [⟨"C", .absent, [("a", .int 1)], none, none, none, false⟩] [] []
    Schema.withOptional (.dict [(.text "a", p)]) (.dict []) = .ok d ∧ Nested p 1 d ∧
      Repeatable agreeable (fun w => w.cached = some .standard) d v ∧
      v.attribute? "a" = .ok (some (.int 1)) ∧
      ((check agreeable d v).startedIn calm).1 = .ok none ∧
      recorded (check agreeable d v) calm = [] := by
  intro p d v
  have hd : Schema.withOptional (.dict [(.text "a", p)]) (.dict []) = .ok d :=
    withOptional_eq_ok_iff.mpr ⟨by decide, rfl⟩
  exact ⟨hd, .object .predicate hd rfl, agreeable_repeatable d v, rfl, rfl, rfl⟩

end Check

end ShapeCheck
