import ShapeCheck.Proofs.ExactShapes
import ShapeCheck.Proofs.Merging
import ShapeCheck.Schema.Build

/-!
# Exact shapes and optional keys

There are two ways to ask for some keys and to give one schema for all others: an exact
shape that declares the wildcard, and an object with required keys whose only optional key
is the wildcard.  The first asks for the keys and then tests every member.  The second
tests the members twice, before and after it asks for the keys, against a merged mapping.

Main statement: with pure predicates both accept the same values (`exact_iff_optional`).
What they say about a value that they reject may differ.
-/

namespace ShapeCheck

namespace Value

variable {key : Value} {entries others : List (Value × Value)}

/-! ## Merged entries -/

/-- Every schema that a mapping has for a key is the item of an entry. -/
theorem exists_item_of_assigns {schema : Value} (h : (dict entries).Assigns key schema) :
    ∃ e ∈ entries, e.2 = schema := by
  have hheld {key' : Value} (hkey : (dict entries).Holds key' schema) :
      ∃ e ∈ entries, e.2 = schema := by
    obtain ⟨e, he, hitem⟩ := exists_entryAt_of_holds hkey
    exact ⟨e, List.mem_of_find?_eq_some he, hitem⟩
  rcases h with h | h
  · exact hheld h
  · exact hheld h.2

/-- A mapping that gives at most a schema for the wildcard. -/
inductive WildcardOnly : List (Value × Value) → Prop
  | none : WildcardOnly []
  | some (schema : Value) : WildcardOnly [(wildcard, schema)]

theorem sameKey_wildcard_of_ne {key : Value} (h : key.isWildcard = false) :
    sameKey key wildcard = false := by
  rw [Bool.eq_false_iff]
  intro hsame
  exact absurd (h.symm.trans (isWildcard_of_sameKey hsame)) Bool.false_ne_true

theorem sameKey_wildcard_eq (key : Value) : sameKey key wildcard = key.isWildcard := by
  cases hkey : key.isWildcard with
  | false => exact sameKey_wildcard_of_ne hkey
  | true =>
      obtain ⟨mark, rfl⟩ : ∃ mark, key = atom mark (.symbol .wildcard) := by
        unfold isWildcard at hkey
        split at hkey
        next mark => exact ⟨mark, rfl⟩
        next => cases hkey
      have hsame : identical (atom mark (.symbol .wildcard)) wildcard = true :=
        identical_atom_iff.mpr (.inr rfl)
      rw [sameKey, hsame, Bool.true_or]

theorem declares_wildcard_eq_false_iff :
    declares entries wildcard = false ↔ ∀ e ∈ entries, e.1.isWildcard = false := by
  simp [declares, sameKey_wildcard_eq]

/-- The wildcard comes after keys that are none. -/
theorem mergeEntries_wildcard (hentries : ∀ e ∈ entries, e.1.isWildcard = false)
    (hothers : WildcardOnly others) : mergeEntries entries others = entries ++ others := by
  cases hothers with
  | none => exact (List.append_nil _).symm
  | some schema =>
      apply mergeEntries_of_apart
      · intro e he o ho
        rw [List.mem_singleton.mp ho]
        exact sameKey_wildcard_of_ne (hentries e he)
      · exact List.pairwise_singleton _ _

theorem WildcardOnly.isWildcard (h : WildcardOnly others) :
    ∀ o ∈ others, o.1.isWildcard = true := by
  cases h with
  | none => exact nofun
  | some schema => exact fun o ho => List.mem_singleton.mp ho ▸ rfl

end Value

namespace Check

open Run

variable {σ : Type} {host : Host σ} {W : World σ → Prop} {d v declared shape : Value}
  {own entries others : List (Value × Value)} {w w' : World σ}

/-! ## Passes that agree -/

/-- A value that has the declared keys passes when it is asked for them. -/
theorem required_of_hasDeclared (h : HasDeclared v declared)
    (hfault : declared.listing.fault = none) (w : World σ) :
    (required declared v).startedIn w = (.ok none, w) := by
  rw [required, eachMember_eq_ok_none_iff]
  refine ⟨?_, hfault⟩
  rw [HasDeclared] at h
  generalize declared.listing.members = members at h
  induction members with
  | nil => rfl
  | cons head tail ih =>
      rw [List.forall_mem_cons] at h
      have hhead : (present v head).startedIn w = (.ok none, w) :=
        present_eq_pass_iff.mpr ⟨h.1, rfl⟩
      rw [firstMismatch_cons, hhead]
      exact ih h.2

/-- Members that pass a strict test pass the lax one in the same way. -/
theorem members_lax_of_strict {rec : Value → Value → Run σ Outcome}
    (h : (members rec shape v true).startedIn w = (.ok none, w')) :
    (members rec shape v false).startedIn w = (.ok none, w') := by
  rw [members, eachMember_eq_ok_none_iff] at h ⊢
  obtain ⟨hstrict, hfault⟩ := h
  refine ⟨?_, hfault⟩
  generalize v.listing.members = members at hstrict ⊢
  induction members generalizing w with
  | nil => exact hstrict
  | cons head tail ih =>
      rw [firstMismatch_cons] at hstrict
      split at hstrict
      next w₁ hhead =>
        have hlax : (member rec shape false head).startedIn w = (.ok none, w₁) := by
          rcases member_eq_pass_iff.mp hhead with hitem | ⟨-, hfalse, -⟩
          · exact member_eq_pass_iff.mpr (.inl hitem)
          · cases hfalse
        rw [firstMismatch_cons, hlax]
        exact ih hstrict
      next hother => exact absurd hstrict (hother w')

/-- Where the declared keys of a shape are those that an object requires, the exact shape
and the object accept alike. -/
theorem exactShape_iff_optionalObject
    (hdeclared : HasDeclared v (.dict others) ↔ HasDeclared v (.dict own))
    (hsettled : MembersSettled host W (.dict others) v) (hw : W w) :
    (∃ w', (exactShape (check host) (.dict others) v).startedIn w = (.ok none, w')) ↔
      ∃ w', (optionalObject (check host) own others v).startedIn w = (.ok none, w') := by
  have hstrict : Settled W (members (check host) (.dict others) v true) :=
    members_settled hsettled
  constructor
  · rintro ⟨w', hrun⟩
    obtain ⟨w₁, hrequired, hmembers⟩ := exactShape_eq_ok_none_iff.mp hrun
    obtain ⟨hhas, rfl⟩ := required_pass hrequired
    obtain ⟨hsettles, hw'⟩ := hstrict.settles hw hmembers
    -- The second strict test starts elsewhere, but the members are settled.
    obtain ⟨w'', -, hagain⟩ := hsettles w' hw'
    have hlax := members_lax_of_strict hmembers
    refine ⟨w'', optionalObject_eq_ok_none_iff.mpr ⟨w', hlax, w', ?_, hagain⟩⟩
    exact required_of_hasDeclared (hdeclared.mp hhas) rfl w'
  · rintro ⟨w', hrun⟩
    obtain ⟨w₁, hlax, w₂, hrequired, hmembers⟩ := optionalObject_eq_ok_none_iff.mp hrun
    obtain ⟨hhas, rfl⟩ := required_pass hrequired
    obtain ⟨-, -, hw₂⟩ := members_pass hsettled hw hlax
    obtain ⟨hsettles, -⟩ := hstrict.settles hw₂ hmembers
    obtain ⟨w'', -, hagain⟩ := hsettles w hw
    refine ⟨w'', exactShape_eq_ok_none_iff.mpr ⟨w, ?_, hagain⟩⟩
    exact required_of_hasDeclared (hdeclared.mpr hhas) rfl w

/-! ## The two schemas -/

/-- The wildcard is never asked for. -/
theorem hasDeclared_append_iff (hothers : ∀ o ∈ others, o.1.isWildcard = true) :
    HasDeclared v (.dict (entries ++ others)) ↔ HasDeclared v (.dict entries) := by
  constructor
  · intro h e he
    exact h e (List.mem_append_left _ he)
  · intro h e he hkey
    rcases List.mem_append.mp he with he | he
    · exact h e he hkey
    · exact absurd ((hothers e he).symm.trans hkey) Bool.true_eq_false.mp

theorem membersSettled_of_items (hpure : ∀ e ∈ entries, ∀ x, Pure host W e.2 x) :
    MembersSettled host W (.dict entries) v := by
  intro entry _ schema hkey
  obtain ⟨e, he, rfl⟩ := Value.exists_item_of_assigns hkey
  exact check_settled (hpure e he entry.2)

theorem mergeShapes_pair (m m' : Nat) (k k' : MappingKind) (entries others : List (Value × Value)) :
    Schema.mergeShapes [.mapping m k entries, .mapping m' k' others] =
      .ok (.dict (Value.mergeEntries (Value.collectEntries entries) others)) := rfl

theorem withOptional_eq (m m' : Nat) (k k' : MappingKind)
    (hentries : ∀ e ∈ entries, e.1.isWildcard = false) (others : List (Value × Value)) :
    Schema.withOptional (.mapping m k entries) (.mapping m' k' others) =
      .ok (Schema.optionalOf entries others) := by
  have habsent : Value.declares entries .wildcard = false := by
    rw [Value.declares, List.any_eq_false]
    intro e he
    rw [Value.sameKey_wildcard_of_ne (hentries e he)]
    exact Bool.false_ne_true
  have hcontains : (Value.mapping m k entries).contains .wildcard = .ok false := by
    rw [Value.contains, habsent]
    rfl
  rw [Schema.withOptional, hcontains]
  rfl

/-- An object schema is made of any two mappings, unless the required one declares the
wildcard. -/
theorem withOptional_eq_ok_iff {m m' : Nat} {k k' : MappingKind} :
    Schema.withOptional (.mapping m k entries) (.mapping m' k' others) = .ok d ↔
      (∀ e ∈ entries, e.1.isWildcard = false) ∧ d = Schema.optionalOf entries others := by
  constructor
  · intro h
    have hcontains : (Value.mapping m k entries).contains .wildcard =
        .ok (Value.declares entries .wildcard) := rfl
    cases hdeclares : Value.declares entries .wildcard with
    | true =>
        rw [Schema.withOptional, hcontains, hdeclares] at h
        cases h
    | false =>
        have hentries := Value.declares_wildcard_eq_false_iff.mp hdeclares
        rw [withOptional_eq m m' k k' hentries others] at h
        exact ⟨hentries, (Except.ok.inj h).symm⟩
  · rintro ⟨hentries, rfl⟩
    exact withOptional_eq m m' k k' hentries others

theorem first_eq_pass_iff {run : Run σ Outcome} :
    (run.startedIn w).1 = .ok none ↔ ∃ w', run.startedIn w = (.ok none, w') :=
  ⟨fun h => ⟨_, Prod.ext h rfl⟩, fun ⟨_, h⟩ => congrArg Prod.fst h⟩

/-- A shape without the wildcard, merged with at most the wildcard, accepts what an object
accepts that requires the keys of the shape and has the other mapping as optional one. -/
theorem exact_iff_optional {m m' : Nat} {k k' : MappingKind}
    (hentries : ∀ e ∈ entries, e.1.isWildcard = false) (hothers : Value.WildcardOnly others)
    (hpure : ∀ e ∈ entries ++ others, ∀ x, Pure host W e.2 x) (hv : v.isObject = true)
    (hw : W w) :
    ∃ exact optional,
      Schema.mergeShapes [.mapping m k entries, .mapping m' k' others] = .ok exact ∧
        Schema.withOptional (.mapping m k entries) (.mapping m' k' others) = .ok optional ∧
        (((check host exact v).startedIn w).1 = .ok none ↔
          ((check host optional v).startedIn w).1 = .ok none) := by
  refine ⟨_, _, mergeShapes_pair m m' k k' entries others,
    withOptional_eq m m' k k' hentries others, ?_⟩
  have hown : ∀ e ∈ Value.collectEntries entries, e.1.isWildcard = false :=
    Value.forall_key_mergeEntries (fun key => key.isWildcard = false) (by simp) hentries
  have hmerged := Value.mergeEntries_wildcard hown hothers
  have hitems : ∀ e ∈ Value.mergeEntries (Value.collectEntries entries) others,
      ∀ x, Pure host W e.2 x := by
    obtain ⟨hpure, hpure'⟩ := List.forall_mem_append.mp hpure
    have hcollected : ∀ e ∈ Value.collectEntries entries, ∀ x, Pure host W e.2 x :=
      Value.forall_item_mergeEntries (fun item => ∀ x, Pure host W item x) (by simp) hpure
    exact Value.forall_item_mergeEntries (fun item => ∀ x, Pure host W item x) hcollected hpure'
  have hsettled := membersSettled_of_items (v := v) hitems
  have hvalue := Value.isPrimitive_of_isObject hv
  have hoptional : (Schema.optionalOf entries others).demand =
      .optional (Value.collectEntries entries)
        (Value.mergeEntries (Value.collectEntries entries) others) := rfl
  rw [first_eq_pass_iff, first_eq_pass_iff, check_of_shape rfl hvalue,
    check_of_optional hoptional hv]
  apply exactShape_iff_optionalObject ?_ hsettled hw
  rw [hmerged]
  exact hasDeclared_append_iff hothers.isWildcard

/-- A number under one key and texts under all others. -/
theorem exact_iff_optional_numbers :
    (∀ e ∈ [(Value.text "a", Schema.ofFamily .number)], e.1.isWildcard = false) ∧
      Value.WildcardOnly [(.wildcard, Schema.ofFamily .string)] ∧
      (Value.dict [(.text "a", .int 1), (.text "b", .text "x")]).isObject = true ∧
      ∃ exact optional,
        Schema.mergeShapes [.dict [(.text "a", Schema.ofFamily .number)],
            .dict [(.wildcard, Schema.ofFamily .string)]] = .ok exact ∧
          Schema.withOptional (.dict [(.text "a", Schema.ofFamily .number)])
            (.dict [(.wildcard, Schema.ofFamily .string)]) = .ok optional ∧
          (((check agreeable exact (.dict [(.text "a", .int 1), (.text "b", .text "x")])).startedIn
              calm).1 = .ok none ↔
            ((check agreeable optional (.dict [(.text "a", .int 1), (.text "b", .text "x")])).startedIn
              calm).1 = .ok none) := by
  have hkeys : ∀ e ∈ [(Value.text "a", Schema.ofFamily .number)], e.1.isWildcard = false := by
    intro e he
    rw [List.mem_singleton.mp he]
    rfl
  refine ⟨hkeys, .some _, rfl, ?_⟩
  exact exact_iff_optional hkeys (.some _) (fun e _ x => agreeable_pure e.2 x) rfl rfl

end Check

end ShapeCheck
