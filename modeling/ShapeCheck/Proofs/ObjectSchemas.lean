import ShapeCheck.Proofs.Guards
import ShapeCheck.Proofs.MergeLaws
import ShapeCheck.Session

/-!
# Schemas of objects are well made

The schema of an object keeps a mapping of required keys and a mapping of optional ones.  A
check asks only the second one which keys an object may have, so it has to declare the required
keys as well.  The combinator that makes such schemas sees to that by merging: a required key
comes first, and has the optional item where there is one.  It refuses a required wildcard, and
reports it to the log.

Main statement: what it makes has merged keys, is not changed by making it once more, and never
takes a declared key for an extra one (`object_made`).
-/

namespace ShapeCheck

namespace Value

variable {K : Value → Prop} {key : Value} {entries others : List (Value × Value)}

/-- Merged entries come under the keys that are there, and then under those of the others that
are not. -/
theorem map_fst_mergeEntries_eq (hK : Coherent K) (hentries : (dict entries).WellKeyed K)
    (hothers : (dict others).WellKeyed K) :
    (mergeEntries entries others).map Prod.fst =
      entries.map Prod.fst ++ (others.map Prod.fst).filter fun key => !declares entries key := by
  rw [mergeEntries_eq hK hentries hothers, List.map_append, List.map_map, List.filter_map]
  rfl

/-- A mapping does not have a hashable key if it does not declare it. -/
theorem declares_eq_false_of_leaves (hkey : key.isHashable = true)
    (h : (dict entries).Leaves key) : declares entries key = false := by
  have hhas := h.1
  simpa [dict, hasKey, hkey] using hhas

end Value

namespace Log

theorem exists_misuse_line (config : Config) (clock : Clock) :
    ∃ line, misuse.line? config clock = .ok line := by
  apply Event.exists_line
  simp only [misuse, List.forall_mem_cons]
  exact ⟨.text _, .text _, by simp⟩

end Log

namespace Check

open Run Value

variable {σ : Type} {host : Host σ} {K : Value → Prop} {d v key shape : Value}
  {own others : List (Value × Value)} {strict : Bool} {w w' : World σ}
  {rec : Value → Value → Run σ Outcome}

/-- A pass over members tells an extra key only if it is strict, and then one that the shape
neither has nor covers. -/
theorem members_extra
    (h : (members rec shape v strict).startedIn w = (.ok (some (.illegalExtraKey key)), w')) :
    strict = true ∧ shape.Leaves key ∧ ∃ entry ∈ v.listing.members, entry.1 = key := by
  obtain ⟨entry, w₁, hreaches, hentry⟩ := eachMember_eq_mismatch_iff.mp h
  rcases member_eq_mismatch_iff.mp hentry with
    ⟨_, _, -, -, htold⟩ | ⟨_, _, _, -, -, -, htold⟩ | ⟨hleaves, hstrict, -, htold⟩
  · cases htold
  · cases htold
  · cases htold
    exact ⟨hstrict, hleaves, entry, hreaches.mem, rfl⟩

/-- An object is told an extra key only if the mapping of optional keys does not declare it. -/
theorem undeclared_of_extra (hK : Coherent K) (hv : v.WellKeyed K)
    (hdemand : d.demand = .optional own others)
    (h : (check host d v).startedIn w = (.ok (some (.illegalExtraKey key)), w')) :
    IsKey K key ∧ declares others key = false := by
  have hextra {strict : Bool} {w₁ : World σ} (hmembers : (members (check host) (.dict others) v
      strict).startedIn w₁ = (.ok (some (.illegalExtraKey key)), w')) :
      IsKey K key ∧ declares others key = false := by
    obtain ⟨-, hleaves, entry, hentry, rfl⟩ := members_extra hmembers
    have hkey := isKey_of_member hK hv hentry
    exact ⟨hkey, declares_eq_false_of_leaves hkey.2 hleaves⟩
  by_cases hobject : v.isObject = true
  · rw [check_of_optional hdemand hobject, optionalObject_eq_iff (mismatch_ne_pass _)] at h
    rcases h with hlax | ⟨w₁, -, hrequired | ⟨w₂, -, hstrict⟩⟩
    · exact hextra hlax
    · obtain ⟨_, _, _, -, -, -, -, htold⟩ := required_mismatch hrequired
      cases htold
    · exact hextra hstrict
  · rw [check_eq_meet, hdemand, meet, if_neg hobject] at h
    cases h

end Check

namespace Session

open Value

variable {K : Value → Prop} {m m' : Nat} {k k' : MappingKind} {d : Value}
  {required optional merged : List (Value × Value)}

/-- The schema of an object that is well made of a mapping of required and one of optional
keys. -/
structure WellMade (K : Value → Prop) (required optional : List (Value × Value)) (d : Value)
    (merged : List (Value × Value)) : Prop where
  /-- It keeps the required entries and the merged ones. -/
  form : ∃ mark, d = .tagged mark .objectOptional (.optional required merged)
  no_wildcard : declares required wildcard = false
  /-- The required keys come first, and then the new ones among the optional keys. -/
  keys : merged.map Prod.fst =
    required.map Prod.fst ++ (optional.map Prod.fst).filter fun key => !declares required key
  declares_eq {key : Value} (hkey : IsKey K key) :
    declares merged key = (declares required key || declares optional key)
  /-- A merged entry has the item that is optional under its key, or else the required one. -/
  item : ∀ e ∈ merged, HasEntry optional e.1 e.2 ∨ e ∈ required ∧ declares optional e.1 = false
  /-- Made once more of its own mappings, it has the same entries. -/
  again (m m' : Nat) (k k' : MappingKind) (session : Session) : ∃ mark session',
    Session.withOptional (.mapping m k required) (.mapping m' k' merged) session =
      (.ok (.tagged mark .objectOptional (.optional required merged)), session')
  /-- In no surroundings and with no predicates a declared key is told as an extra one. -/
  no_extra {σ : Type} (host : Host σ) {v key : Value} (w : World σ) (hv : v.WellKeyed K)
    (h : ((ShapeCheck.check host d v).startedIn w).1 = .ok (some (.illegalExtraKey key))) :
    declares required key = false ∧ declares optional key = false

theorem bind_apply {α β : Type} (first : Sessional α) (next : α → Sessional β)
    (session : Session) :
    (first >>= next) session =
      match first session with
      | (.ok a, session') => next a session'
      | (.error fault, session') => (.error fault, session') := by
  change (match first session with | (a, session') => ExceptT.bindCont next a session') = _
  rcases first session with ⟨_ | _, _⟩ <;> rfl

/-- A required wildcard is reported to the log, and refused. -/
theorem withOptional_of_wildcard (m m' : Nat) (k k' : MappingKind)
    (optional : List (Value × Value)) (session : Session)
    (hwildcard : declares required wildcard = true) :
    ∃ line, Session.withOptional (.mapping m k required) (.mapping m' k' optional) session =
      (.error .wildcardRequired, { session with world := { session.world with
        events := session.world.events ++ [(Log.misuse, line)] } }) := by
  obtain ⟨line, hline⟩ := Log.exists_misuse_line session.world.logging session.world.clock
  refine ⟨line, ?_⟩
  have hcontains : (mapping m k required).contains .wildcard = .ok true :=
    congrArg Except.ok hwildcard
  have hrefused : Schema.withOptional (.mapping m k required) (.mapping m' k' optional) =
      .error .wildcardRequired := by
    rw [Schema.withOptional, hcontains]
    rfl
  have hemit : Session.within (Run.emit Log.misuse) session =
      (.ok (), { session with world := { session.world with
        events := session.world.events ++ [(Log.misuse, line)] } }) := by
    simp only [Session.within, Run.emit, hline]
  rw [Session.withOptional, hrefused]
  simp only [bind_apply, hemit]
  rfl

/-- Otherwise a schema is made, under a mark of its own. -/
theorem withOptional_of_not_wildcard (hK : Coherent K) (m m' : Nat) (k k' : MappingKind)
    (optional : List (Value × Value)) (session : Session)
    (hrequired : (dict required).WellKeyed K) (hwildcard : declares required wildcard = false) :
    Session.withOptional (.mapping m k required) (.mapping m' k' optional) session =
      (.ok (.tagged session.nextMark .objectOptional
          (.optional required (mergeEntries required optional))),
        { session with nextMark := session.nextMark + 1 }) := by
  have hmade := Check.withOptional_eq m m' k k' (declares_wildcard_eq_false_iff.mp hwildcard)
    optional
  rw [Schema.optionalOf, collectEntries_eq hK hrequired] at hmade
  rw [Session.withOptional, hmade]
  rfl

theorem wellMade (hK : Coherent K) (mark : Nat) (hrequired : (dict required).WellKeyed K)
    (hoptional : (dict optional).WellKeyed K) (hwildcard : declares required wildcard = false) :
    WellMade K required optional
      (.tagged mark .objectOptional (.optional required (mergeEntries required optional)))
      (mergeEntries required optional) where
  form := ⟨mark, rfl⟩
  no_wildcard := hwildcard
  keys := map_fst_mergeEntries_eq hK hrequired hoptional
  declares_eq hkey := declares_mergeEntries hK hrequired.1 hoptional.1 hkey
  item _ he := hasEntry_or_undeclared hK hrequired hoptional he
  again m m' k k' session := by
    rw [withOptional_of_not_wildcard hK m m' k k' _ session hrequired hwildcard,
      mergeEntries_merged hK hrequired hoptional.1]
    exact ⟨_, _, rfl⟩
  no_extra host v key w hv h := by
    have hrun : (ShapeCheck.check host _ v).startedIn w = (.ok (some (.illegalExtraKey key)), _) :=
      Prod.ext h rfl
    obtain ⟨hkey, hundeclared⟩ := Check.undeclared_of_extra hK hv rfl hrun
    rw [declares_mergeEntries hK hrequired.1 hoptional.1 hkey] at hundeclared
    exact Bool.or_eq_false_iff.mp hundeclared

/-- The schema of an object is refused if it requires the wildcard, and well made otherwise.
Neither changes a named value or what the predicates know. -/
theorem object_made (hK : Coherent K) (m m' : Nat) (k k' : MappingKind) (session : Session)
    (hrequired : (dict required).WellKeyed K) (hoptional : (dict optional).WellKeyed K) :
    ∃ answer session',
      Session.withOptional (.mapping m k required) (.mapping m' k' optional) session =
        (answer, session') ∧
      session'.named = session.named ∧ session'.world.predicates = session.world.predicates ∧
      (answer = .error .wildcardRequired ↔ declares required wildcard = true) ∧
      (declares required wildcard = false →
        ∃ d merged, answer = .ok d ∧ WellMade K required optional d merged) := by
  cases hwildcard : declares required wildcard with
  | true =>
      obtain ⟨line, hrun⟩ := withOptional_of_wildcard m m' k k' optional session hwildcard
      exact ⟨_, _, hrun, rfl, rfl, by simp, nofun⟩
  | false =>
      refine ⟨_, _, withOptional_of_not_wildcard hK m m' k k' optional session hrequired hwildcard,
        rfl, rfl, by simp, fun _ => ⟨_, mergeEntries required optional, rfl, ?_⟩⟩
      exact wellMade hK session.nextMark hrequired hoptional hwildcard

/-- A number under an integer has to be there. -/
def requiredNumber : List (Value × Value) := [(.int 1, Schema.ofFamily .number)]

/-- Under the truth value that is the same key there may be a text, and numbers elsewhere. -/
def optionalText : List (Value × Value) :=
  [(.bool true, Schema.ofFamily .string), (.wildcard, Schema.ofFamily .number)]

/-- What comes under the integer has to be a text. -/
example : mergeEntries requiredNumber optionalText =
    [(.int 1, Schema.ofFamily .string), (.wildcard, Schema.ofFamily .number)] := rfl

theorem object_made_text :
    declares requiredNumber wildcard = false ∧ ∃ d merged session',
      Session.withOptional (.dict requiredNumber) (.dict optionalText) (start "" ⟨"", ""⟩) =
        (.ok d, session') ∧
      WellMade (Stored fun _ => .null) requiredNumber optionalText d merged := by
  have hrequired : (dict requiredNumber).WellKeyed (Stored fun _ => .null) :=
    ⟨List.forall_mem_singleton.mpr ⟨.atom, rfl⟩, by decide⟩
  have hoptional : (dict optionalText).WellKeyed (Stored fun _ => .null) :=
    ⟨List.forall_mem_cons.mpr ⟨⟨.atom, rfl⟩, List.forall_mem_singleton.mpr ⟨.atom, rfl⟩⟩, by decide⟩
  have hwildcard : declares requiredNumber wildcard = false := by decide
  obtain ⟨answer, session', hrun, -, -, -, hmakes⟩ := object_made (stored_coherent fun _ => .null)
    0 0 .dict .dict (start "" ⟨"", ""⟩) hrequired hoptional
  obtain ⟨d, merged, rfl, hmade⟩ := hmakes hwildcard
  exact ⟨hwildcard, d, merged, session', hrun, hmade⟩

end Session

end ShapeCheck
