import Mathlib.Tactic.SplitIfs
import ShapeCheck.Proofs.Runs

/-!
# The schema that a shape has for a key

A shape may hold a schema under a key, or cover the key by its wildcard, or do neither.
These three, together with a lookup that fails, are all that can happen to a member of a
value that is tested against a shape (`Value.key_cases`), and each has a lemma that tells
how the test goes on.
-/

namespace ShapeCheck

namespace Value

/-- A value has a member under a key. -/
def Holds (shape key schema : Value) : Prop :=
  shape.hasKey key = .ok true ∧ shape.get key = .ok schema

/-- A shape has no member under a key, but one under the wildcard. -/
def Covers (shape key schema : Value) : Prop :=
  shape.hasKey key = .ok false ∧ shape.Holds wildcard schema

/-- A shape neither has a key nor covers it. -/
def Leaves (shape key : Value) : Prop :=
  shape.hasKey key = .ok false ∧ shape.hasKey wildcard = .ok false

/-- A shape has a schema for a key: its own, or else that of the wildcard. -/
def Assigns (shape key schema : Value) : Prop :=
  shape.Holds key schema ∨ shape.Covers key schema

theorem mem_of_lookup {fields : List (String × Value)} {name : String} {v : Value}
    (hfound : fields.lookup name = some v) : (name, v) ∈ fields := by
  obtain ⟨before, after, rfl, -⟩ := List.lookup_eq_some_iff.mp hfound
  simp

theorem hasKey_wildcard (shape : Value) : ∃ b, shape.hasKey wildcard = .ok b := by
  cases shape <;> exact ⟨_, rfl⟩

theorem entryAt?_isSome (entries : List (Value × Value)) (key : Value) :
    (entryAt? entries key).isSome = declares entries key := by
  rw [Bool.eq_iff_iff, entryAt?, declares, List.find?_isSome, List.any_eq_true]

/-- A present position is that of an element. -/
theorem elementAt_of_position {items : List Value} {i : Int} (hlow : 0 ≤ i)
    (hhigh : i < items.length) : ∃ v, elementAt items i = .ok v := by
  have hlt : i.toNat < items.length := by omega
  have hneg : ¬ i < 0 := by omega
  simp [elementAt, hneg, hlt]

/-- Tells that a value is looked into by attribute name. -/
def HasAttributes (v : Value) : Prop := v.isMapping = false ∧ v.isSequence = false

theorem HasAttributes.hasKey_eq {v : Value} (hv : v.HasAttributes) (key : Value) :
    v.hasKey key =
      match key.asText? with
      | some name => (v.attribute? name).map Option.isSome
      | none => .ok false := by
  cases v with
  | mapping => exact absurd hv.1 Bool.true_eq_false.mp
  | sequence => exact absurd hv.2 Bool.true_eq_false.mp
  | _ => rfl

theorem HasAttributes.get_eq {v : Value} (hv : v.HasAttributes) (key : Value) :
    v.get key =
      match key.asText? with
      | some name => do
        match ← v.attribute? name with
        | some w => return w
        | none => throw .missingAttribute
      | none => .error .wrongType := by
  cases v with
  | mapping => exact absurd hv.1 Bool.true_eq_false.mp
  | sequence => exact absurd hv.2 Bool.true_eq_false.mp
  | _ => rfl

/-- A lookup that asks for one name before the rest finds what goes by that name, or what the
rest finds. -/
theorem choice_cases {α : Type} {c : Prop} [Decidable c] {a w : α} {rest : Option α}
    (h : (if c then some a else rest) = some w) : (c ∧ w = a) ∨ rest = some w := by
  by_cases hc : c
  · exact .inl ⟨hc, (Option.some.inj ((if_pos hc).symm.trans h)).symm⟩
  · exact .inr ((if_neg hc).symm.trans h)

/-- What a value has by its type: the type, a description of it, or an operation. -/
theorem typeAttribute_cases {v w : Value} {name : String} (hw : typeAttribute? v name = some w) :
    w = native (typeOf v) ∨ (w = null ∨ ∃ s, w = text s) ∨
      v.inheritedNames.contains name = true ∧ w = method v name := by
  unfold typeAttribute? at hw
  rcases choice_cases hw with ⟨-, rfl⟩ | hw
  · exact .inl rfl
  rcases choice_cases hw with ⟨-, rfl⟩ | hw
  · cases description? (typeOf v) with
    | none => exact .inr (.inl (.inl rfl))
    | some s => exact .inr (.inl (.inr ⟨s, rfl⟩))
  rcases choice_cases hw with ⟨hinherited, rfl⟩ | hw
  · exact .inr (.inr ⟨hinherited, rfl⟩)
  · cases hw

/-- What a value that cannot be called has by its kind: something without parts, one or all
of the fields of a record, or what a decoration wraps. -/
theorem kindAttribute_cases {v w : Value} {name : String} (hv : v.isCallable = false)
    (hw : kindAttribute? v name = some w) :
    (∃ mark a, w = atom mark a) ∨
      (∃ mark fields, v = record mark fields ∧
        (fields.lookup name = some w ∨ w = dict (fieldEntries fields))) ∨
      v = decorated true w := by
  cases v with
  | range | bag | buffer | computed | slotAccessor =>
      simp only [kindAttribute?] at hw
      split_ifs at hw <;> exact .inl ⟨_, _, (Option.some.inj hw).symm⟩
  | record mark fields =>
      rcases Option.or_eq_some_iff.mp hw with hfield | ⟨-, hw⟩
      · exact .inr (.inl ⟨mark, fields, rfl, .inl hfield⟩)
      · split_ifs at hw
        · exact .inr (.inl ⟨mark, fields, rfl, .inr (Option.some.inj hw).symm⟩)
        · exact .inl ⟨_, _, (Option.some.inj hw).symm⟩
  | decorated bindsClass inner =>
      obtain rfl : bindsClass = true := by simpa [isCallable] using hv
      simp only [kindAttribute?] at hw
      split at hw
      · exact .inr (.inr (congrArg (decorated true) (Option.some.inj hw)))
      · split at hw
        · split at hw
          · exact .inl ⟨_, _, (Option.some.inj hw).symm⟩
          · cases hw
        · cases hw
  | function | method | applied | native | guard => cases hv
  | _ => cases hw

/-- What an object has although no class of it defines it: its class, what the class tells of
itself, its own fields, or an operation. -/
theorem objectFacility_cases {mark : Nat} {layers : List (Layer Value)}
    {slots fields : List (String × Value)} {name : String} {w : Value}
    (hw : objectFacility? mark layers slots fields name = some w) :
    w = classObject mark layers ∨ (w = null ∨ w = text "user") ∨ w = slotDeclaration layers ∨
      w = dict (fieldEntries fields) ∨
      (layers.any Layer.callable = true ∧ w = native .callable) ∨
      w = method (object mark layers slots fields) name := by
  unfold objectFacility? at hw
  rcases choice_cases hw with ⟨-, rfl⟩ | hw
  · exact .inl rfl
  rcases choice_cases hw with ⟨-, rfl⟩ | hw
  · exact .inr (.inl (.inl rfl))
  rcases choice_cases hw with ⟨-, rfl⟩ | hw
  · exact .inr (.inl (.inr rfl))
  rcases choice_cases hw with ⟨-, rfl⟩ | hw
  · exact .inr (.inr (.inl rfl))
  rcases choice_cases hw with ⟨-, rfl⟩ | hw
  · exact .inr (.inr (.inr (.inl rfl)))
  rcases choice_cases hw with ⟨hcall, rfl⟩ | hw
  · have hcallable := (Bool.and_eq_true_iff.mp hcall).2
    exact .inr (.inr (.inr (.inr (.inl ⟨hcallable, rfl⟩))))
  rcases choice_cases hw with ⟨-, rfl⟩ | hw
  · exact .inr (.inl (.inl rfl))
  rcases choice_cases hw with ⟨-, rfl⟩ | hw
  · exact .inr (.inr (.inr (.inr (.inr rfl))))
  · cases hw

/-- A value that is looked into by attribute name holds what its attributes hold. -/
theorem HasAttributes.holds_iff {v : Value} (hv : v.HasAttributes) {key held : Value} :
    v.Holds key held ↔ ∃ name, key.asText? = some name ∧ v.attribute? name = .ok (some held) := by
  rw [Holds, hv.hasKey_eq, hv.get_eq]
  cases key.asText? with
  | none => simp
  | some name =>
      rcases hattribute : v.attribute? name with fault | _ | w
      · simp [Except.map, hattribute]
      · simp [Except.map, hattribute]
      · simp [Except.map, hattribute, bind, Except.bind, pure, Except.pure]

theorem HasAttributes.get_of_hasKey {v key : Value} (hv : v.HasAttributes)
    (hkey : v.hasKey key = .ok true) : ∃ w, v.get key = .ok w := by
  rw [hv.hasKey_eq] at hkey
  rw [hv.get_eq]
  cases hname : key.asText? with
  | none => simp [hname] at hkey
  | some name =>
      rcases hattribute : v.attribute? name with fault | _ | w
      · simp [hname, hattribute, Except.map] at hkey
      · simp [hname, hattribute, Except.map] at hkey
      · exact ⟨w, by simp [hattribute, bind, Except.bind, pure, Except.pure]⟩

/-- A present key has a member. -/
theorem get_of_hasKey {container key : Value} (hkey : container.hasKey key = .ok true) :
    ∃ v, container.get key = .ok v := by
  cases container with
  | mapping mark kind entries =>
      simp only [hasKey] at hkey
      split at hkey
      next hhashable =>
        have hfound : (entryAt? entries key).isSome := by
          rw [entryAt?_isSome]
          simpa using hkey
        obtain ⟨e, he⟩ := Option.isSome_iff_exists.mp hfound
        exact ⟨e.2, by simp [get, hhashable, he]⟩
      next => simp at hkey
  | sequence mark kind items =>
      cases key with
      | atom m a =>
          cases hposition : (atom m a).position? with
          | none => simp [hasKey, hposition] at hkey
          | some i =>
              have hinside : 0 ≤ i ∧ i < items.length := by simpa [hasKey, hposition] using hkey
              have hint : a.asInt? = some i := by
                cases a <;> simp_all [position?]
              obtain ⟨v, hv⟩ := elementAt_of_position hinside.1 hinside.2
              exact ⟨v, by simp [get, hint, hv]⟩
      | _ => simp [hasKey, position?] at hkey
  | _ => exact HasAttributes.get_of_hasKey ⟨rfl, rfl⟩ hkey

/-- The four ways in which a key can stand to a shape. -/
theorem key_cases (shape key : Value) :
    (∃ schema, shape.Holds key schema) ∨ (∃ schema, shape.Covers key schema) ∨
      shape.Leaves key ∨ ∃ fault, shape.hasKey key = .error fault := by
  rcases hkey : shape.hasKey key with fault | _ | _
  · exact .inr (.inr (.inr ⟨fault, rfl⟩))
  · obtain ⟨b, hwildcard⟩ := shape.hasKey_wildcard
    cases b with
    | false => exact .inr (.inr (.inl ⟨hkey, hwildcard⟩))
    | true =>
        obtain ⟨schema, hschema⟩ := get_of_hasKey hwildcard
        exact .inr (.inl ⟨schema, hkey, hwildcard, hschema⟩)
  · obtain ⟨schema, hschema⟩ := get_of_hasKey hkey
    exact .inl ⟨schema, hkey, hschema⟩

theorem Holds.unique {shape key s s' : Value} (h : shape.Holds key s)
    (h' : shape.Holds key s') : s = s' :=
  Except.ok.inj (h.2.symm.trans h'.2)

/-- A shape has at most one schema for a key. -/
theorem Assigns.unique {shape key s s' : Value} (h : shape.Assigns key s)
    (h' : shape.Assigns key s') : s = s' := by
  rcases h with h | h <;> rcases h' with h' | h'
  · exact h.unique h'
  · exact absurd (h.1.symm.trans h'.1) (by simp)
  · exact absurd (h.1.symm.trans h'.1) (by simp)
  · exact h.2.unique h'.2

theorem asInt_of_position {mark : Nat} {a : Atom} {i : Int}
    (h : (atom mark a).position? = some i) : a.asInt? = some i := by
  cases a <;> first | exact h | cases h

theorem elementAt_natCast (items : List Value) (i : Nat) :
    elementAt items (i : Int) = (items[i]?.elim (.error .badPosition) .ok) := by
  have hneg : ¬ (i : Int) < 0 := by omega
  cases hitem : items[i]? <;> simp [elementAt, hneg, hitem]

/-- A sequence holds its elements under the integers that count them. -/
theorem holds_sequence_iff {mark : Nat} {kind : SequenceKind} {items : List Value}
    {key held : Value} :
    (sequence mark kind items).Holds key held ↔
      ∃ i : Nat, key.position? = some (i : Int) ∧ items[i]? = some held := by
  constructor
  · rintro ⟨hkey, hget⟩
    cases hposition : key.position? with
    | none => simp [hasKey, hposition] at hkey
    | some i =>
        have hinside : 0 ≤ i ∧ i < items.length := by simpa [hasKey, hposition] using hkey
        obtain ⟨n, rfl⟩ := Int.eq_ofNat_of_zero_le hinside.1
        refine ⟨n, rfl, ?_⟩
        cases key with
        | atom m a =>
            simp only [get, asInt_of_position hposition, elementAt_natCast] at hget
            cases hitem : items[n]? with
            | none => simp [hitem] at hget
            | some item => simpa [hitem] using hget
        | _ => cases hposition
  · rintro ⟨i, hposition, hitem⟩
    have hinside : i < items.length := (List.getElem?_eq_some_iff.mp hitem).1
    refine ⟨by simp [hasKey, hposition, hinside], ?_⟩
    cases key with
    | atom m a => simp [get, asInt_of_position hposition, elementAt_natCast, hitem]
    | _ => cases hposition

theorem Leaves.not_assigns {shape key schema : Value} (h : shape.Leaves key) :
    ¬ shape.Assigns key schema := by
  rintro (h' | h')
  · exact absurd (h.1.symm.trans h'.1) (by simp)
  · exact absurd (h.2.symm.trans h'.2.1) (by simp)

end Value

namespace Check

open Run

variable {σ : Type} {rec : Value → Value → Run σ Outcome} {shape key schema : Value}
  {strict : Bool}

/-- A member under a key that the shape holds is checked against what it holds. -/
theorem member_of_holds (hkey : shape.Holds key schema) (item : Value) :
    member rec shape strict (key, item) =
      rec schema item >>= fun outcome => pure (outcome.map (.objectError · key)) := by
  simp only [member, hkey.1, hkey.2]
  rfl

/-- A member under a key that only the wildcard covers is checked against the schema of
the wildcard, and a mismatch is told under a key of its own. -/
theorem member_of_covers (hkey : shape.Covers key schema) (item : Value) :
    member rec shape strict (key, item) =
      rec schema item >>= fun outcome =>
        match outcome with
        | none => pure none
        | some problem => lift (coveredKey key) >>= fun told =>
          pure (some (.objectError problem told)) := by
  simp only [member, hkey.1, hkey.2.1, hkey.2.2]
  rfl

theorem member_of_leaves (hkey : shape.Leaves key) (item : Value) :
    member rec shape strict (key, item) =
      pure (if strict then some (.illegalExtraKey key) else none) := by
  simp only [member, hkey.1, hkey.2]
  cases strict <;> rfl

theorem member_of_error {fault : Fault} (hkey : shape.hasKey key = .error fault)
    (item : Value) : member rec shape strict (key, item) = throw fault := by
  simp only [member, hkey]
  rfl

theorem present_of_wildcard {v : Value} {entry : Value × Value}
    (hentry : entry.1.isWildcard = true) :
    present (σ := σ) v entry = pure none := by
  simp only [present, hentry, if_true]

theorem present_of_ne_wildcard {v : Value} {entry : Value × Value}
    (hentry : entry.1.isWildcard = false) :
    present (σ := σ) v entry =
      lift (v.hasKey entry.1) >>= fun found =>
        pure (.ofBool found (.requiredKeyMissing entry.1)) := by
  simp only [present, hentry]
  rfl

theorem coveredKey_eq_error_iff {fault : Fault} :
    coveredKey key = .error fault ↔ key.plain = .error fault := by
  rw [coveredKey]
  rcases key.plain with fault' | plain <;> simp [bind, Except.bind, pure, Except.pure]

theorem coveredKey_eq_ok_iff {told : Value} :
    coveredKey key = .ok told ↔
      ∃ plain, key.plain = .ok plain ∧ told = .text (plain ++ " -> " ++ Symbol.wildcardText) := by
  rw [coveredKey]
  rcases key.plain with fault | plain <;> simp [bind, Except.bind, pure, Except.pure, eq_comm]

/-- The three ways in which the test of a member can fail: the shape cannot be asked for
the key, the check of the item fails, or a mismatch of a covered item cannot be told. -/
theorem member_eq_error_iff {entry : Value × Value} {fault : Fault} {w w' : World σ} :
    (member rec shape strict entry).startedIn w = (.error fault, w') ↔
      (shape.hasKey entry.1 = .error fault ∧ w = w') ∨
        (∃ schema, shape.Assigns entry.1 schema ∧
          (rec schema entry.2).startedIn w = (.error fault, w')) ∨
        ∃ schema problem, shape.Covers entry.1 schema ∧
          (rec schema entry.2).startedIn w = (.ok (some problem), w') ∧
          entry.1.plain = .error fault := by
  obtain ⟨key, item⟩ := entry
  constructor
  · intro hrun
    rcases shape.key_cases key with ⟨schema, hkey⟩ | ⟨schema, hkey⟩ | hkey | ⟨fault', hkey⟩
    · rw [member_of_holds hkey, bind_pure_eq_error_iff] at hrun
      exact .inr (.inl ⟨schema, .inl hkey, hrun⟩)
    · rw [member_of_covers hkey, bind_eq_error_iff] at hrun
      rcases hrun with hitem | ⟨_ | problem, w₁, hitem, htold⟩
      · exact .inr (.inl ⟨schema, .inr hkey, hitem⟩)
      · simp at htold
      · rw [bind_pure_eq_error_iff, lift_startedIn] at htold
        obtain ⟨hplain, rfl⟩ := Prod.mk.inj htold
        exact .inr (.inr ⟨schema, problem, hkey, hitem, coveredKey_eq_error_iff.mp hplain⟩)
    · rw [member_of_leaves hkey] at hrun
      simp at hrun
    · rw [member_of_error hkey, throw_startedIn] at hrun
      obtain ⟨hfault, rfl⟩ := Prod.mk.inj hrun
      exact .inl ⟨Except.error.inj hfault ▸ hkey, rfl⟩
  · rintro (⟨hkey, rfl⟩ | ⟨schema, hkey | hkey, hitem⟩ | ⟨schema, problem, hkey, hitem, hplain⟩)
    · rw [member_of_error hkey, throw_startedIn]
    · rw [member_of_holds hkey, bind_pure_eq_error_iff]
      exact hitem
    · rw [member_of_covers hkey, bind_eq_error_iff]
      exact .inl hitem
    · rw [member_of_covers hkey, bind_eq_error_iff]
      refine .inr ⟨some problem, w', hitem, ?_⟩
      rw [bind_pure_eq_error_iff, lift_startedIn, coveredKey_eq_error_iff.mpr hplain]

/-- A member passes the test if its item conforms to the schema for its key, or if there
is none and the test is lax. -/
theorem member_eq_pass_iff {entry : Value × Value} {w w' : World σ} :
    (member rec shape strict entry).startedIn w = (.ok none, w') ↔
      (∃ schema, shape.Assigns entry.1 schema ∧
        (rec schema entry.2).startedIn w = (.ok none, w')) ∨
        shape.Leaves entry.1 ∧ strict = false ∧ w = w' := by
  obtain ⟨key, item⟩ := entry
  constructor
  · intro hrun
    rcases shape.key_cases key with ⟨schema, hkey⟩ | ⟨schema, hkey⟩ | hkey | ⟨fault, hkey⟩
    · rw [member_of_holds hkey, bind_pure_eq_ok_iff] at hrun
      obtain ⟨outcome, hitem, houtcome⟩ := hrun
      rw [Option.map_eq_none_iff] at houtcome
      exact .inl ⟨schema, .inl hkey, houtcome ▸ hitem⟩
    · rw [member_of_covers hkey, bind_eq_ok_iff] at hrun
      obtain ⟨_ | problem, w₁, hitem, htold⟩ := hrun
      · obtain rfl := congrArg Prod.snd htold
        exact .inl ⟨schema, .inr hkey, hitem⟩
      · rw [bind_pure_eq_ok_iff] at htold
        obtain ⟨told, -, htold⟩ := htold
        exact absurd htold (by simp)
    · rw [member_of_leaves hkey] at hrun
      cases strict with
      | true => simp at hrun
      | false => exact .inr ⟨hkey, rfl, congrArg Prod.snd hrun⟩
    · rw [member_of_error hkey] at hrun
      simp at hrun
  · rintro (⟨schema, hkey | hkey, hitem⟩ | ⟨hkey, rfl, rfl⟩)
    · rw [member_of_holds hkey, bind_pure_eq_ok_iff]
      exact ⟨none, hitem, rfl⟩
    · rw [member_of_covers hkey, bind_eq_ok_iff]
      exact ⟨none, w', hitem, rfl⟩
    · rw [member_of_leaves hkey]
      rfl

/-- The three mismatches that the test of a member can end in. -/
theorem member_eq_mismatch_iff {entry : Value × Value} {problem : Problem} {w w' : World σ} :
    (member rec shape strict entry).startedIn w = (.ok (some problem), w') ↔
      (∃ schema inner, shape.Holds entry.1 schema ∧
        (rec schema entry.2).startedIn w = (.ok (some inner), w') ∧
        problem = .objectError inner entry.1) ∨
      (∃ schema inner plain, shape.Covers entry.1 schema ∧
        (rec schema entry.2).startedIn w = (.ok (some inner), w') ∧
        entry.1.plain = .ok plain ∧
        problem = .objectError inner (.text (plain ++ " -> " ++ Symbol.wildcardText))) ∨
      shape.Leaves entry.1 ∧ strict = true ∧ w = w' ∧ problem = .illegalExtraKey entry.1 := by
  obtain ⟨key, item⟩ := entry
  constructor
  · intro hrun
    rcases shape.key_cases key with ⟨schema, hkey⟩ | ⟨schema, hkey⟩ | hkey | ⟨fault, hkey⟩
    · rw [member_of_holds hkey, bind_pure_eq_ok_iff] at hrun
      obtain ⟨outcome, hitem, houtcome⟩ := hrun
      rw [Option.map_eq_some_iff] at houtcome
      obtain ⟨inner, rfl, rfl⟩ := houtcome
      exact .inl ⟨schema, inner, hkey, hitem, rfl⟩
    · rw [member_of_covers hkey, bind_eq_ok_iff] at hrun
      obtain ⟨_ | inner, w₁, hitem, htold⟩ := hrun
      · simp at htold
      · rw [bind_pure_eq_ok_iff] at htold
        obtain ⟨told, hrun, hproblem⟩ := htold
        obtain ⟨hcovered, rfl⟩ := Prod.mk.inj hrun
        obtain ⟨plain, hplain, rfl⟩ := coveredKey_eq_ok_iff.mp hcovered
        exact .inr (.inl ⟨schema, inner, plain, hkey, hitem, hplain,
          (Option.some.inj hproblem).symm⟩)
    · rw [member_of_leaves hkey] at hrun
      cases strict with
      | true =>
          obtain ⟨hproblem, rfl⟩ := Prod.mk.inj hrun
          have hproblem := Option.some.inj (Except.ok.inj hproblem)
          exact .inr (.inr ⟨hkey, rfl, rfl, hproblem.symm⟩)
      | false => simp at hrun
    · rw [member_of_error hkey] at hrun
      simp at hrun
  · rintro (⟨schema, inner, hkey, hitem, rfl⟩ | ⟨schema, inner, plain, hkey, hitem, hplain, rfl⟩ |
      ⟨hkey, rfl, rfl, rfl⟩)
    · rw [member_of_holds hkey, bind_pure_eq_ok_iff]
      exact ⟨some inner, hitem, rfl⟩
    · rw [member_of_covers hkey, bind_eq_ok_iff]
      refine ⟨some inner, w', hitem, ?_⟩
      rw [bind_pure_eq_ok_iff]
      exact ⟨_, by rw [lift_startedIn, coveredKey_eq_ok_iff.mpr ⟨plain, hplain, rfl⟩], rfl⟩
    · rw [member_of_leaves hkey]
      rfl

/-- Asking for a declared key fails where the value cannot be asked for it. -/
theorem present_eq_error_iff {v : Value} {entry : Value × Value} {fault : Fault}
    {w w' : World σ} :
    (present v entry).startedIn w = (.error fault, w') ↔
      entry.1.isWildcard = false ∧ v.hasKey entry.1 = .error fault ∧ w = w' := by
  cases hentry : entry.1.isWildcard with
  | true => simp [present_of_wildcard hentry]
  | false =>
      rw [present_of_ne_wildcard hentry, bind_pure_eq_error_iff]
      simp

/-- A declared key is there, or it is the wildcard, which is not asked for. -/
theorem present_eq_pass_iff {v : Value} {entry : Value × Value} {w w' : World σ} :
    (present v entry).startedIn w = (.ok none, w') ↔
      (entry.1.isWildcard = false → v.hasKey entry.1 = .ok true) ∧ w = w' := by
  cases hentry : entry.1.isWildcard with
  | true => simp [present_of_wildcard hentry]
  | false =>
      rw [present_of_ne_wildcard hentry, bind_pure_eq_ok_iff]
      rcases v.hasKey entry.1 with fault | _ | _ <;> simp [Outcome.ofBool]

theorem present_eq_mismatch_iff {v : Value} {entry : Value × Value} {problem : Problem}
    {w w' : World σ} :
    (present v entry).startedIn w = (.ok (some problem), w') ↔
      entry.1.isWildcard = false ∧ v.hasKey entry.1 = .ok false ∧ w = w' ∧
        problem = .requiredKeyMissing entry.1 := by
  cases hentry : entry.1.isWildcard with
  | true => simp [present_of_wildcard hentry]
  | false =>
      rw [present_of_ne_wildcard hentry, bind_pure_eq_ok_iff]
      rcases v.hasKey entry.1 with fault | _ | _ <;> simp [Outcome.ofBool, and_comm, eq_comm]

/-! ## The passes over keys -/

theorem exactShape_eq_iff {v : Value} {answer : Except Fault Outcome} {w w' : World σ}
    (hanswer : answer ≠ .ok none) :
    (exactShape rec shape v).startedIn w = (answer, w') ↔
      (required shape v).startedIn w = (answer, w') ∨
        ∃ w₁, (required shape v).startedIn w = (.ok none, w₁) ∧
          (members rec shape v true).startedIn w₁ = (answer, w') :=
  bind_mismatch_eq_iff hanswer

theorem exactShape_eq_ok_none_iff {v : Value} {w w' : World σ} :
    (exactShape rec shape v).startedIn w = (.ok none, w') ↔
      ∃ w₁, (required shape v).startedIn w = (.ok none, w₁) ∧
        (members rec shape v true).startedIn w₁ = (.ok none, w') :=
  bind_mismatch_eq_ok_none_iff

theorem optionalObject_eq_iff {own others : List (Value × Value)} {v : Value}
    {answer : Except Fault Outcome} {w w' : World σ} (hanswer : answer ≠ .ok none) :
    (optionalObject rec own others v).startedIn w = (answer, w') ↔
      (members rec (.dict others) v false).startedIn w = (answer, w') ∨
        ∃ w₁, (members rec (.dict others) v false).startedIn w = (.ok none, w₁) ∧
          ((required (.dict own) v).startedIn w₁ = (answer, w') ∨
            ∃ w₂, (required (.dict own) v).startedIn w₁ = (.ok none, w₂) ∧
              (members rec (.dict others) v true).startedIn w₂ = (answer, w')) := by
  refine (bind_mismatch_eq_iff hanswer).trans (or_congr Iff.rfl ?_)
  exact exists_congr fun w₁ => and_congr Iff.rfl (bind_mismatch_eq_iff hanswer)

theorem optionalObject_eq_ok_none_iff {own others : List (Value × Value)} {v : Value}
    {w w' : World σ} :
    (optionalObject rec own others v).startedIn w = (.ok none, w') ↔
      ∃ w₁, (members rec (.dict others) v false).startedIn w = (.ok none, w₁) ∧
        ∃ w₂, (required (.dict own) v).startedIn w₁ = (.ok none, w₂) ∧
          (members rec (.dict others) v true).startedIn w₂ = (.ok none, w') := by
  refine bind_mismatch_eq_ok_none_iff.trans ?_
  exact exists_congr fun w₁ => and_congr Iff.rfl bind_mismatch_eq_ok_none_iff

end Check

end ShapeCheck
