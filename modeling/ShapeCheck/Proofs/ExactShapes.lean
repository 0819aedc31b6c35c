import ShapeCheck.Proofs.Containers
import ShapeCheck.Proofs.Verdicts

/-!
# Shapes that are mappings or sequences are exact

A check asks a value for the keys of a shape, and then the shape for the keys of the
value.  Mappings find keys by equality and sequences by position, so each of the two
questions goes by the kind of the one that is asked.  For containers they come to the
same: an accepted value has the keys of the shape, each of them once, and no others.
-/

namespace ShapeCheck

namespace Value

/-- Only the wildcard is the same key as the wildcard. -/
theorem isWildcard_of_sameKey {key : Value} (h : sameKey key wildcard = true) :
    key.isWildcard = true := by
  cases key with
  | atom m a =>
      cases a with
      | symbol s => cases s <;> first | rfl | cases h
      | _ => cases h
  | sequence m kind items => cases kind <;> cases items <;> cases h
  | bag m kind items => cases kind <;> cases h
  | _ => cases h

/-- A container covers no key, unless the wildcard is among its own. -/
theorem Container.not_covers {d key schema : Value} (hd : d.Container)
    (hexact : ∀ e ∈ d.listing.members, e.1.isWildcard = false) : ¬ d.Covers key schema := by
  rintro ⟨-, hwildcard⟩
  obtain ⟨e, he, hsame, -⟩ := hd.exists_member hwildcard
  have hnot := hexact e he
  rw [isWildcard_of_sameKey hsame] at hnot
  cases hnot

theorem Container.isPrimitive_eq {v : Value} (hv : v.Container) : v.isPrimitive = false := by
  cases hv <;> rfl

theorem Container.demand_eq {d : Value} (hd : d.Container) : d.demand = .shape := by
  cases hd <;> rfl

end Value

namespace Check

open Run Value

variable {σ : Type} {host : Host σ} {W : World σ → Prop} {K : Value → Prop} {d v : Value}
  {w : World σ}

/-- The keys of a shape and those of a value go in pairs of the same key, and what the
shape holds under a key accepts what the value holds under its partner. -/
structure Paired (host : Host σ) (W : World σ → Prop) (d v : Value) : Prop where
  length_eq : d.listing.members.length = v.listing.members.length
  declared : ∀ e ∈ d.listing.members, ∃! e', e' ∈ v.listing.members ∧ sameKey e.1 e'.1 = true
  own : ∀ e' ∈ v.listing.members, ∃! e, e ∈ d.listing.members ∧ sameKey e.1 e'.1 = true
  accepts : ∀ e ∈ d.listing.members, ∀ e' ∈ v.listing.members, sameKey e.1 e'.1 = true →
    d.Holds e.1 e.2 ∧ v.Holds e'.1 e'.2 ∧ Accepts host W e.2 e'.2

/-- A container has no more keys than another that has all of them. -/
theorem length_le_of_sameKey (hK : Coherent K) (hd : d.Container)
    (hdkeys : d.WellKeyed K) (hvkeys : v.WellKeyed K)
    (h : ∀ e ∈ d.listing.members, ∃ e' ∈ v.listing.members, sameKey e.1 e'.1 = true) :
    d.listing.members.length ≤ v.listing.members.length := by
  apply length_le_of_partners h
  apply (hd.members_pairwise hdkeys).imp_of_mem
  intro e e₁ he he₁ hapart e' he' hsame hsame₁
  have hkey := isKey_of_member hK hdkeys he
  have hkey₁ := isKey_of_member hK hdkeys he₁
  have hkey' := isKey_of_member hK hvkeys he'
  rw [hK.sameKey_of_right hkey hkey₁ hkey' hsame hsame₁] at hapart
  cases hapart

/-- An accepted container has the keys of a shape that is a container, each of them once,
and no others, unless the shape declares the wildcard. -/
theorem accepted_keys_paired (hK : Coherent K) (hd : d.Container) (hv : v.Container)
    (hdkeys : d.WellKeyed K) (hvkeys : v.WellKeyed K)
    (hexact : ∀ e ∈ d.listing.members, e.1.isWildcard = false) (hpure : Pure host W d v)
    (hw : W w) (haccepts : ((check host d v).startedIn w).1 = .ok none) :
    Paired host W d v := by
  have hkeyed : Keyed d v d d := .shape hd.demand_eq hv.isPrimitive_eq
  have hrun : (check host d v).startedIn w = (.ok none, _) := Prod.ext haccepts rfl
  obtain ⟨hdeclared, hmembers⟩ := hkeyed.accepts hpure hw hrun
  have hdkey {e : Value × Value} (he : e ∈ d.listing.members) : IsKey K e.1 :=
    isKey_of_member hK hdkeys he
  have hvkey {e : Value × Value} (he : e ∈ v.listing.members) : IsKey K e.1 :=
    isKey_of_member hK hvkeys he
  have hforth : ∀ e ∈ d.listing.members, ∃ e' ∈ v.listing.members, sameKey e.1 e'.1 = true := by
    intro e he
    have hkey := hdeclared e he (hexact e he)
    obtain ⟨held, hget⟩ := get_of_hasKey hkey
    obtain ⟨e', he', hsame, -⟩ := hv.exists_member ⟨hkey, hget⟩
    exact ⟨e', he', hK.sameKey_symm (hvkey he') (hdkey he) hsame⟩
  have hback : ∀ e' ∈ v.listing.members,
      ∃ e ∈ d.listing.members, sameKey e.1 e'.1 = true ∧ Accepts host W e.2 e'.2 := by
    intro e' he'
    obtain ⟨⟨schema, hassigns⟩, haccepted⟩ := hmembers e' he'
    have hholds := hassigns.resolve_right (hd.not_covers hexact)
    obtain ⟨e, he, hsame, rfl⟩ := hd.exists_member hholds
    exact ⟨e, he, hsame, haccepted e.2 hassigns⟩
  constructor
  case length_eq =>
    apply Nat.le_antisymm
    · exact length_le_of_sameKey hK hd hdkeys hvkeys hforth
    · apply length_le_of_sameKey hK hv hvkeys hdkeys
      intro e' he'
      obtain ⟨e, he, hsame, -⟩ := hback e' he'
      exact ⟨e, he, hK.sameKey_symm (hdkey he) (hvkey he') hsame⟩
  case declared =>
    intro e he
    obtain ⟨e', he', hsame⟩ := hforth e he
    refine ⟨e', ⟨he', hsame⟩, ?_⟩
    rintro e₁ ⟨he₁, hsame₁⟩
    apply hv.member_unique hK hvkeys he₁ he'
    exact hK.sameKey_of_left (hvkey he₁) (hvkey he') (hdkey he) hsame₁ hsame
  case own =>
    intro e' he'
    obtain ⟨e, he, hsame, -⟩ := hback e' he'
    refine ⟨e, ⟨he, hsame⟩, ?_⟩
    rintro e₁ ⟨he₁, hsame₁⟩
    apply hd.member_unique hK hdkeys he₁ he
    exact hK.sameKey_of_right (hdkey he₁) (hdkey he) (hvkey he') hsame₁ hsame
  case accepts =>
    intro e he e' he' hsame
    obtain ⟨e₁, he₁, hsame₁, haccepted⟩ := hback e' he'
    obtain rfl : e = e₁ := by
      apply hd.member_unique hK hdkeys he he₁
      exact hK.sameKey_of_right (hdkey he) (hdkey he₁) (hvkey he') hsame hsame₁
    exact ⟨hd.holds_of_member hK hdkeys he, hv.holds_of_member hK hvkeys he', haccepted⟩

/-- A mapping of one entry. -/
def single (key item : Value) : Value := .dict [(key, item)]

theorem single_wellKeyed {key : Value} (hkey : K key) (hhashable : key.isHashable = true)
    {item : Value} : (single key item).WellKeyed K :=
  ⟨by simpa using ⟨hkey, hhashable⟩, List.pairwise_singleton _ _⟩

/-- The tuple of a number. -/
def numberTuple : Value := .sequence 1 .tuple [.int 1]

/-- The tuple of a truth value, which is an equal key. -/
def truthTuple : Value := .sequence 2 .tuple [.bool true]

/-- Two tuples under marks of their own. -/
def twoTuples (mark : Nat) : Value := if mark = 1 then numberTuple else truthTuple

/-- Equal tuples are the same key, though one holds a number and the other a truth value. -/
theorem accepted_keys_paired_tuples :
    Paired agreeable (fun w => w.cached = some .standard)
      (single numberTuple (Schema.ofFamily .number)) (single truthTuple (.int 5)) := by
  apply accepted_keys_paired (stored_coherent twoTuples) .mapping .mapping
  · exact single_wellKeyed (.marked rfl rfl (List.forall_mem_singleton.mpr .atom) trivial) rfl
  · exact single_wellKeyed (.marked rfl rfl (List.forall_mem_singleton.mpr .atom) trivial) rfl
  · decide
  · exact agreeable_pure _ _
  · exact (rfl : calm.cached = _)
  · rfl

end Check

end ShapeCheck
