import ShapeCheck.Proofs.OptionalShapes

/-!
# Relaxed object schemas

The schema of an object is relaxed by asking for fewer keys, and by giving schemas for more
keys or for all others.  A value that was accepted has no key without a schema, so that
none of its keys can come under a new one, and it is tested as it was before.

Main statement: what an object schema without the wildcard accepts, a relaxed one accepts
(`relaxed_accepts`), with any predicates and after the same calls.
-/

namespace ShapeCheck

namespace Value

variable {K : Value → Prop} {key item : Value} {e : Value × Value}
  {entries entries' others others' : List (Value × Value)}

/-- Entries have an item under a key. -/
def HasEntry (entries : List (Value × Value)) (key item : Value) : Prop :=
  ∃ e ∈ entries, sameKey e.1 key = true ∧ e.2 = item

/-- One list of entries has every entry of another, under the same key. -/
def Includes (entries others : List (Value × Value)) : Prop :=
  ∀ o ∈ others, HasEntry entries o.1 o.2

/-- A mapping without the wildcard covers no key. -/
theorem holds_of_assigns (hentries : ∀ e ∈ entries, e.1.isWildcard = false)
    (h : (dict entries).Assigns key item) : (dict entries).Holds key item :=
  h.resolve_right (Container.mapping.not_covers hentries)

theorem overridden_of_undeclared (h : declares others e.1 = false) : overridden others e = e :=
  overridden_of_absent (by simpa [declares] using h)

section

variable (hK : Coherent K) (hentries : (dict entries).WellKeyed K)

include hK hentries

/-- A mapping holds what it has an entry for. -/
theorem holds_iff_hasEntry (hkey : IsKey K key) :
    (dict entries).Holds key item ↔ HasEntry entries key item := by
  constructor
  · exact Container.mapping.exists_member
  · rintro ⟨e, he, hsame, rfl⟩
    exact holds_of_sameKey hK hentries he hkey hsame

theorem hasEntry_of_mem (he : e ∈ entries) : HasEntry entries e.1 e.2 := by
  have hkey := hentries.1 e he
  exact ⟨e, he, hK.itself hkey.1 hkey.2, rfl⟩

variable (hothers : (dict others).WellKeyed K)

include hothers

/-- Entries that include others have what those have. -/
theorem Includes.hasEntry (hincludes : Includes entries others) (hkey : IsKey K key)
    (h : HasEntry others key item) : HasEntry entries key item := by
  obtain ⟨o, ho, hsame, rfl⟩ := h
  obtain ⟨e, he, hsame', hitem⟩ := hincludes o ho
  exact ⟨e, he, hK.sameKey_trans (hentries.1 e he) (hothers.1 o ho) hkey hsame' hsame, hitem⟩

/-- Merged entries include those that are merged into others. -/
theorem includes_mergeEntries : Includes (mergeEntries entries others) others := by
  intro o ho
  have hokey := hothers.1 o ho
  rw [mergeEntries_eq hK hentries hothers]
  cases hdeclared : declares entries o.1 with
  | false =>
      refine ⟨o, List.mem_append_right _ ?_, hK.itself hokey.1 hokey.2, rfl⟩
      exact List.mem_filter.mpr ⟨ho, by simp [hdeclared]⟩
  | true =>
      obtain ⟨e, he, hsame⟩ := List.any_eq_true.mp hdeclared
      have hekey := hentries.1 e he
      have hholds := holds_of_sameKey hK hothers ho hekey (hK.sameKey_symm hekey hokey hsame)
      obtain ⟨o', hfound, hitem⟩ := exists_entryAt_of_holds hholds
      refine ⟨overridden others e, List.mem_append_left _ (List.mem_map_of_mem he), hsame, ?_⟩
      rw [overridden, hfound, ← hitem]
      rfl

/-- Merged entries have the entries whose keys others do not declare. -/
theorem mem_mergeEntries (he : e ∈ entries) (habsent : declares others e.1 = false) :
    e ∈ mergeEntries entries others := by
  rw [mergeEntries_eq hK hentries hothers, ← overridden_of_undeclared habsent]
  exact List.mem_append_left _ (List.mem_map_of_mem he)

/-- A merged entry has the item of one that was merged into others, or is one of the others
whose key is not declared again. -/
theorem hasEntry_or_undeclared (he : e ∈ mergeEntries entries others) :
    HasEntry others e.1 e.2 ∨ e ∈ entries ∧ declares others e.1 = false := by
  rw [mergeEntries_eq hK hentries hothers] at he
  rcases List.mem_append.mp he with he | he
  · obtain ⟨stored, hstored, rfl⟩ := List.mem_map.mp he
    cases hdeclared : declares others stored.1 with
    | false =>
        rw [overridden_of_undeclared hdeclared]
        exact .inr ⟨hstored, hdeclared⟩
    | true =>
        obtain ⟨o, hfound⟩ := Option.isSome_iff_exists.mp
          ((entryAt?_isSome others stored.1).trans hdeclared)
        rw [overridden, hfound]
        rw [entryAt?] at hfound
        have hsame := List.find?_some hfound
        exact .inl ⟨o, List.mem_of_find?_eq_some hfound, hsame, rfl⟩
  · exact .inl (hasEntry_of_mem hK hothers (List.mem_filter.mp he).1)

/-- Where optional entries are kept, and required ones that they do not override stay as they
are or become optional, no merged entry is lost. -/
theorem includes_of_moved (hentries' : (dict entries').WellKeyed K)
    (hothers' : (dict others').WellKeyed K) (hkept : Includes others' others)
    (hmoved : ∀ e ∈ entries, declares others e.1 = false →
      HasEntry others' e.1 e.2 ∨ e ∈ entries' ∧ declares others' e.1 = false) :
    Includes (mergeEntries entries' others') (mergeEntries entries others) := by
  have hmerged := mergeEntries_wellKeyed hentries hothers.1
  have hmerged' := mergeEntries_wellKeyed hentries' hothers'.1
  have hoptional {key item : Value} (hkey : IsKey K key) (h : HasEntry others' key item) :
      HasEntry (mergeEntries entries' others') key item :=
    (includes_mergeEntries hK hentries' hothers').hasEntry hK hmerged' hothers' hkey h
  intro e he
  have hkey := hmerged.1 e he
  rcases hasEntry_or_undeclared hK hentries hothers he with hentry | ⟨he, hdeclared⟩
  · exact hoptional hkey (hkept.hasEntry hK hothers' hothers hkey hentry)
  · rcases hmoved e he hdeclared with hentry | ⟨he', hdeclared'⟩
    · exact hoptional hkey hentry
    · exact hasEntry_of_mem hK hmerged' (mem_mergeEntries hK hentries' hothers' he' hdeclared')

end

end Value

namespace Run

variable {σ α : Type} {test : α → Run σ Outcome} {items : List α} {w w' : World σ}

/-- Where all of a traversal passes, each item has passed. -/
theorem exists_pass_of_firstMismatch
    (h : (firstMismatch test items).startedIn w = (.ok none, w')) :
    ∀ item ∈ items, ∃ w₁ w₂, (test item).startedIn w₁ = (.ok none, w₂) := by
  induction items generalizing w with
  | nil => exact nofun
  | cons head tail ih =>
      rw [firstMismatch_cons] at h
      split at h
      next w₁ hhead => exact List.forall_mem_cons.mpr ⟨⟨w, w₁, hhead⟩, ih h⟩
      next hother => exact absurd h (hother w')

end Run

namespace Check

open Run Value

variable {σ : Type} {host : Host σ} {K : Value → Prop} {d d' v shape shape' : Value}
  {entry : Value × Value} {strict : Bool} {w w' : World σ}
  {rec : Value → Value → Run σ Outcome}
  {own own' others others' entries entries' optional optional' : List (Value × Value)}

theorem hasSchema_of_strict
    (h : (members rec shape v true).startedIn w = (.ok none, w')) :
    ∀ entry ∈ v.listing.members, HasSchema shape entry.1 := by
  intro entry hentry
  rw [members, eachMember_eq_ok_none_iff] at h
  obtain ⟨w₁, w₂, hrun⟩ := exists_pass_of_firstMismatch h.1 entry hentry
  rcases member_eq_pass_iff.mp hrun with ⟨schema, hkey, -⟩ | ⟨-, hstrict, -⟩
  · exact ⟨schema, hkey⟩
  · cases hstrict

/-- Shapes that hold the same schemas under the keys of a value test its members alike. -/
theorem members_eq_of_holds
    (h : ∀ entry ∈ v.listing.members, ∃ schema,
      shape.Holds entry.1 schema ∧ shape'.Holds entry.1 schema) :
    members rec shape v strict = members rec shape' v strict := by
  apply eachMember_congr
  intro entry hentry
  obtain ⟨schema, hholds, hholds'⟩ := h entry hentry
  rw [member_of_holds hholds, member_of_holds hholds']

/-- The required keys of an accepted value may be fewer. -/
theorem required_of_subset (hown : own' ⊆ own)
    (h : (required (.dict own) v).startedIn w = (.ok none, w')) :
    (required (.dict own') v).startedIn w = (.ok none, w') := by
  obtain ⟨hdeclared, rfl⟩ := required_pass h
  have hfewer : HasDeclared v (.dict own') := fun e he => hdeclared e (hown he)
  exact required_of_hasDeclared hfewer rfl _

/-- An object that is accepted holds its members under keys that the schema declares, and
so under keys for which a relaxed one has the same schemas. -/
theorem optionalObject_of_relaxed (hK : Coherent K) (hothers : (dict others).WellKeyed K)
    (hothers' : (dict others').WellKeyed K) (hv : v.WellKeyed K)
    (hexact : ∀ o ∈ others, o.1.isWildcard = false) (hown : own' ⊆ own)
    (hincludes : Includes others' others)
    (h : (optionalObject rec own others v).startedIn w = (.ok none, w')) :
    (optionalObject rec own' others' v).startedIn w = (.ok none, w') := by
  obtain ⟨w₁, hlax, w₂, hrequired, hstrict⟩ := optionalObject_eq_ok_none_iff.mp h
  have hholds : ∀ entry ∈ v.listing.members, ∃ schema,
      (dict others).Holds entry.1 schema ∧ (dict others').Holds entry.1 schema := by
    intro entry hentry
    obtain ⟨schema, hassigns⟩ := hasSchema_of_strict hstrict entry hentry
    have hholds := holds_of_assigns hexact hassigns
    have hkey := isKey_of_member hK hv hentry
    refine ⟨schema, hholds, (holds_iff_hasEntry hK hothers' hkey).mpr ?_⟩
    exact hincludes.hasEntry hK hothers' hothers hkey
      ((holds_iff_hasEntry hK hothers hkey).mp hholds)
  refine optionalObject_eq_ok_none_iff.mpr ⟨w₁, ?_, w₂, required_of_subset hown hrequired, ?_⟩
  · rw [← members_eq_of_holds hholds]
    exact hlax
  · rw [← members_eq_of_holds hholds]
    exact hstrict

theorem demand_optionalOf (hK : Coherent K) (hentries : (dict entries).WellKeyed K)
    (optional : List (Value × Value)) :
    (Schema.optionalOf entries optional).demand =
      .optional entries (mergeEntries entries optional) := by
  rw [Schema.optionalOf, collectEntries_eq hK hentries]
  rfl

/-- What the schema of an object without the wildcard accepts is accepted where fewer keys
are required and more keys, or all others, may be there. -/
theorem relaxed_accepts {m₁ m₂ m₃ m₄ : Nat} {k₁ k₂ k₃ k₄ : MappingKind} (hK : Coherent K)
    (hd : Schema.withOptional (.mapping m₁ k₁ entries) (.mapping m₂ k₂ optional) = .ok d)
    (hd' : Schema.withOptional (.mapping m₃ k₃ entries') (.mapping m₄ k₄ optional') = .ok d')
    (hentries : (dict entries).WellKeyed K) (hoptional : (dict optional).WellKeyed K)
    (hentries' : (dict entries').WellKeyed K) (hoptional' : (dict optional').WellKeyed K)
    (hv : v.WellKeyed K) (hexact : ∀ o ∈ optional, o.1.isWildcard = false)
    (hdeleted : entries' ⊆ entries)
    (hincludes : Includes (mergeEntries (collectEntries entries') optional')
      (mergeEntries (collectEntries entries) optional))
    (haccepts : (check host d v).startedIn w = (.ok none, w')) :
    (check host d' v).startedIn w = (.ok none, w') := by
  obtain ⟨hnamed, rfl⟩ := withOptional_eq_ok_iff.mp hd
  obtain ⟨-, rfl⟩ := withOptional_eq_ok_iff.mp hd'
  rw [collectEntries_eq hK hentries, collectEntries_eq hK hentries'] at hincludes
  have hdemand := demand_optionalOf hK hentries optional
  have hdemand' := demand_optionalOf hK hentries' optional'
  have hobject := isObject_of_accepted hdemand haccepts
  rw [check_of_optional hdemand hobject] at haccepts
  rw [check_of_optional hdemand' hobject]
  have hmerged := mergeEntries_wellKeyed hentries hoptional.1
  have hmerged' := mergeEntries_wellKeyed hentries' hoptional'.1
  have hwild : ∀ e ∈ mergeEntries entries optional, e.1.isWildcard = false :=
    forall_key_mergeEntries (fun key => key.isWildcard = false) hnamed hexact
  exact optionalObject_of_relaxed hK hmerged hmerged' hv hwild hdeleted hincludes haccepts

/-- A number and a text, both of which have to be there. -/
def pairEntries : List (Value × Value) :=
  [(.text "a", Schema.ofFamily .number), (.text "b", Schema.ofFamily .string)]

/-- The number, which still has to be there. -/
def numberEntries : List (Value × Value) := [(.text "a", Schema.ofFamily .number)]

/-- The text, which may be there, and numbers under any other keys. -/
def looseEntries : List (Value × Value) :=
  [(.text "b", Schema.ofFamily .string), (.wildcard, Schema.ofFamily .number)]

/-- An object of such a pair. -/
def pairObject : Value := .dict [(.text "a", .int 1), (.text "b", .text "x")]

/-- A required key becomes optional, and all keys are covered. -/
theorem relaxed_accepts_pair :
    ∃ d d', Schema.withOptional (.dict pairEntries) (.dict []) = .ok d ∧
      Schema.withOptional (.dict numberEntries) (.dict looseEntries) = .ok d' ∧
      (check agreeable d pairObject).startedIn calm = (.ok none, calm) ∧
      (check agreeable d' pairObject).startedIn calm = (.ok none, calm) := by
  let store : Nat → Value := fun _ => .null
  have hK : Coherent (Stored store) := stored_coherent store
  have hd : Schema.withOptional (.dict pairEntries) (.dict []) =
      .ok (Schema.optionalOf pairEntries []) := withOptional_eq_ok_iff.mpr ⟨by decide, rfl⟩
  have hd' : Schema.withOptional (.dict numberEntries) (.dict looseEntries) =
      .ok (Schema.optionalOf numberEntries looseEntries) :=
    withOptional_eq_ok_iff.mpr ⟨by decide, rfl⟩
  have htwo {e e' : Value × Value} (he : IsKey (Stored store) e.1)
      (he' : IsKey (Stored store) e'.1) :
      ∀ entry ∈ [e, e'], IsKey (Stored store) entry.1 :=
    List.forall_mem_cons.mpr ⟨he, List.forall_mem_singleton.mpr he'⟩
  have hpair : (dict pairEntries).WellKeyed (Stored store) :=
    ⟨htwo ⟨.atom, rfl⟩ ⟨.atom, rfl⟩, by decide⟩
  have hnone : (dict []).WellKeyed (Stored store) := ⟨by simp, .nil⟩
  have hnumber : (dict numberEntries).WellKeyed (Stored store) :=
    ⟨List.forall_mem_singleton.mpr ⟨.atom, rfl⟩, by decide⟩
  have hloose : (dict looseEntries).WellKeyed (Stored store) :=
    ⟨htwo ⟨.atom, rfl⟩ ⟨.atom, rfl⟩, by decide⟩
  have hobject : pairObject.WellKeyed (Stored store) :=
    ⟨htwo ⟨.atom, rfl⟩ ⟨.atom, rfl⟩, by decide⟩
  have hmoved : ∀ e ∈ pairEntries, declares [] e.1 = false →
      HasEntry looseEntries e.1 e.2 ∨ e ∈ numberEntries ∧ declares looseEntries e.1 = false := by
    intro e he _
    rcases List.mem_pair.mp he with rfl | rfl
    · exact .inr ⟨List.mem_singleton_self _, by decide⟩
    · exact .inl ⟨_, List.mem_cons_self, by decide, rfl⟩
  have hincludes := includes_of_moved hK hpair hnone hnumber hloose (by simp [Includes]) hmoved
  rw [← collectEntries_eq hK hpair, ← collectEntries_eq hK hnumber] at hincludes
  have haccepts : (check agreeable (Schema.optionalOf pairEntries []) pairObject).startedIn calm =
      (.ok none, calm) := rfl
  refine ⟨_, _, hd, hd', haccepts, ?_⟩
  exact relaxed_accepts hK hd hd' hpair hnone hnumber hloose hobject (by simp)
    (by simp [numberEntries, pairEntries]) hincludes haccepts

end Check

end ShapeCheck
