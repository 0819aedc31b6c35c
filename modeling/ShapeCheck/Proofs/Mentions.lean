import Mathlib.Logic.Relation
import ShapeCheck.Proofs.Inert

/-!
# What a mismatch mentions

A mismatch mentions schemas, values and keys.  Whatever the predicates of the caller do, a
check takes them from the schema and the value that it is given, or finds them there: as a
key or an item of what a value lists, as an attribute, or as a part of a tagged schema.  Only
a key that the wildcard covers is told by a text that is made anew.

Main statement: a mismatch of a check mentions what is found in its schema and its value
(`check_within`).
-/

namespace ShapeCheck

/-- The keys of the shapes that a form is made of. -/
def Form.keys {α : Type} : Form α → List α
  | optional own others => (own ++ others).map Prod.fst
  | _ => []

namespace Value

/-- What is found in a value. -/
inductive Found : Value → Value → Prop
  | key {x k v : Value} (hentry : (k, v) ∈ x.listing.members) : Found x k
  | item {x k v : Value} (hentry : (k, v) ∈ x.listing.members) : Found x v
  | named {x y : Value} {name : String} (hattribute : x.attribute? name = .ok (some y)) :
      Found x y
  | part {mark : Nat} {tag : Tag} {form : Form Value} {y : Value}
      (hpart : y ∈ form.keys ++ form.schemas) : Found (tagged mark tag form) y

/-- A value leads to another one, however many steps on it is found. -/
def LeadsTo : Value → Value → Prop := Relation.ReflTransGen Found

variable {d x y key schema : Value}

theorem found_of_demand (h : schema ∈ d.demand.schemas) : Found d schema := by
  have hcontents := Check.mem_contents_of_demand h
  cases d with
  | tagged mark tag form => exact .part (List.mem_append_right _ hcontents)
  | atom => cases h
  | _ =>
      simp only [demand] at h
      split_ifs at h <;> cases h

theorem found_of_holds (h : d.Holds key schema) : Found d schema := by
  cases d with
  | mapping mark kind entries =>
      obtain ⟨e, he, -, rfl⟩ := Container.mapping.exists_member h
      exact .item he
  | sequence mark kind items =>
      obtain ⟨e, he, -, rfl⟩ := Container.sequence.exists_member h
      exact .item he
  | _ =>
      obtain ⟨name, -, hattribute⟩ := HasAttributes.holds_iff ⟨rfl, rfl⟩ |>.mp h
      exact .named hattribute

theorem found_of_mem_sequence {mark : Nat} {kind : SequenceKind} {items : List Value}
    (h : x ∈ items) : Found (sequence mark kind items) x := by
  obtain ⟨i, hi⟩ := List.getElem?_of_mem h
  have hlisted : (int (0 + i : Nat), x) ∈ positions 0 items :=
    mem_positions_iff.mpr ⟨i, rfl, hi⟩
  exact .item hlisted

theorem found_of_mem_optional {mark : Nat} {tag : Tag} {own others : List (Value × Value)}
    {e : Value × Value} (he : e ∈ own ++ others) :
    Found (tagged mark tag (.optional own others)) e.1 ∧
      Found (tagged mark tag (.optional own others)) e.2 :=
  ⟨.part (List.mem_append_left _ (List.mem_map_of_mem he)),
    .part (List.mem_append_right _ (List.mem_map_of_mem he))⟩

theorem Assigns.exists_holds (h : d.Assigns key schema) : ∃ held, d.Holds held schema := by
  rcases h with h | h
  · exact ⟨key, h⟩
  · exact ⟨wildcard, h.2⟩

end Value

namespace Mismatch

/-- A mismatch mentions nothing but values of a collection, and keys that are told by a
text. -/
inductive Within (P : Value → Prop) : Problem → Prop
  | incorrectType {expected got : Value} (hexpected : P expected) (hgot : P got) :
      Within P (.incorrectType expected got)
  | incorrectValue {expected got : Value} (hexpected : P expected) (hgot : P got) :
      Within P (.incorrectValue expected got)
  | unionNoMatch {errors : List Problem} (herrors : ∀ m ∈ errors, Within P m) :
      Within P (.unionNoMatch errors)
  | arrayError {error : Problem} {index : Nat} (herror : Within P error)
      (hindex : P (.int index)) : Within P (.arrayError error index)
  | recordError {error : Problem} {key : Value} (herror : Within P error) (hkey : P key) :
      Within P (.recordError error key)
  | objectError {error : Problem} {key : Value} (herror : Within P error)
      (hkey : P key ∨ ∃ s, key = .text s) : Within P (.objectError error key)
  | requiredKeyMissing {key : Value} (hkey : P key) : Within P (.requiredKeyMissing key)
  | illegalExtraKey {key : Value} (hkey : P key) : Within P (.illegalExtraKey key)
  | checkerFailed (reason : Option String) : Within P (.checkerFailed reason)

end Mismatch

namespace Check

open Run Value Mismatch

variable {σ : Type} {host : Host σ} {P : Value → Prop}
  {d v d' v' schema declared shape : Value} {w w' : World σ} {strict : Bool} {m : Problem}

section

variable (hfound : ∀ {x y}, P x → Found x y → P y)

section

variable (hd : P d)

include hfound hd

theorem Keyed.schema_within (hkeyed : Keyed d v declared shape) {key : Value}
    (hkey : shape.Assigns key schema) : P schema := by
  obtain ⟨held, hholds⟩ := hkey.exists_holds
  cases hkeyed with
  | shape => exact hfound hd (found_of_holds hholds)
  | @optional own others hdemand =>
      obtain ⟨e, he, -, rfl⟩ := Container.mapping.exists_member hholds
      refine hfound hd (found_of_demand ?_)
      rw [hdemand]
      exact List.mem_map_of_mem (List.mem_append_right _ he)

theorem Keyed.key_within (hkeyed : Keyed d v declared shape) {entry : Value × Value}
    (hentry : entry ∈ declared.listing.members) : P entry.1 := by
  cases hkeyed with
  | shape => exact hfound hd (.key hentry)
  | @optional own others hdemand =>
      cases d with
      | tagged mark tag form =>
          obtain rfl : form = .optional own others := by
            cases form <;> cases tag <;> cases hdemand <;> rfl
          exact hfound hd (found_of_mem_optional (List.mem_append_left _ hentry)).1
      | atom => cases hdemand
      | _ =>
          simp only [demand] at hdemand
          split_ifs at hdemand

theorem required_within (hkeyed : Keyed d v declared shape)
    (hrun : (required declared v).startedIn w = (.ok (some m), w')) : Within P m := by
  obtain ⟨before, entry, after, hdeclared, -, -, -, rfl⟩ := required_mismatch hrun
  exact .requiredKeyMissing (hkeyed.key_within hfound hd (by simp [hdeclared]))

/-- What a check goes on to is found in its schema and its value. -/
theorem Next.within (hv : P v) (h : Next (d, v) (d', v')) : P d' ∧ P v' := by
  cases h with
  | element hdemand hitem =>
      exact ⟨hfound hd (found_of_demand (by simp [hdemand, Demand.schemas])),
        hfound hv (found_of_mem_sequence hitem)⟩
  | value hdemand _ hentry =>
      exact ⟨hfound hd (found_of_demand (by simp [hdemand, Demand.schemas])),
        hfound hv (.item hentry)⟩
  | alternative hdemand hschema =>
      exact ⟨hfound hd (found_of_demand (by simp [hdemand, Demand.schemas, hschema])), hv⟩
  | member hkeyed hentry hkey =>
      exact ⟨hkeyed.schema_within hfound hd hkey, hfound hv (.item hentry)⟩

end

include hfound in
theorem members_within (hv : P v) (hkeyed : Keyed d v declared shape)
    (hinner : ∀ d' v', Next (d, v) (d', v') → ∀ {w w' m},
      (check host d' v').startedIn w = (.ok (some m), w') → Within P m)
    (hrun : (members (check host) shape v strict).startedIn w = (.ok (some m), w')) :
    Within P m := by
  obtain ⟨entry, w₁, hreaches, hentry⟩ := eachMember_eq_mismatch_iff.mp hrun
  have hmem := hreaches.mem
  have hkey : P entry.1 := hfound hv (.key hmem)
  rcases member_eq_mismatch_iff.mp hentry with
    ⟨schema, inner, hholds, hitem, rfl⟩ | ⟨schema, inner, plain, hcovers, hitem, -, rfl⟩ |
      ⟨-, -, -, rfl⟩
  · exact .objectError (hinner _ _ (.member hkeyed hmem (.inl hholds)) hitem) (.inl hkey)
  · exact .objectError (hinner _ _ (.member hkeyed hmem (.inr hcovers)) hitem) (.inr ⟨_, rfl⟩)
  · exact .illegalExtraKey hkey

end

/-- The mismatches of a traversal are those of its items. -/
theorem exists_of_rejections {α : Type} {test : α → Run σ Outcome} {items : List α}
    {problems : List Problem}
    (hrun : (rejections test items).startedIn w = (.ok (some problems), w'))
    {problem : Problem} (hproblem : problem ∈ problems) :
    ∃ item ∈ items, ∃ w₁ w₂, (test item).startedIn w₁ = (.ok (some problem), w₂) := by
  induction items generalizing w problems with
  | nil =>
      obtain rfl : [] = problems := by simpa using congrArg Prod.fst hrun
      cases hproblem
  | cons head tail ih =>
      obtain ⟨first, w₁, more, hhead, hrest, rfl⟩ := rejections_cons_eq_some_iff.mp hrun
      rcases List.mem_cons.mp hproblem with rfl | hproblem
      · exact ⟨head, List.mem_cons_self, w, w₁, hhead⟩
      · obtain ⟨item, hitem, htest⟩ := ih hrest hproblem
        exact ⟨item, List.mem_cons_of_mem _ hitem, htest⟩

/-- A mismatch of a check mentions what is found in its schema and its value. -/
theorem check_within (hfound : ∀ {x y}, P x → Found x y → P y) (hd : P d) (hv : P v)
    (hrun : (check host d v).startedIn w = (.ok (some m), w')) : Within P m := by
  induction d, v using Next.induction generalizing w w' m with
  | step d v ih =>
      have hinner (d' v' : Value) (hnext : Next (d, v) (d', v')) {w w' : World σ} {m : Problem} :
          (check host d' v').startedIn w = (.ok (some m), w') → Within P m := by
        obtain ⟨hd', hv'⟩ := hnext.within hfound hd hv
        exact ih d' v' hnext hd' hv'
      have hcourse := check_course host d v
      generalize check host d v = run at hcourse hrun
      cases hcourse with
      | fits | undecided => simp at hrun
      | misfits =>
          obtain rfl := Option.some.inj (Except.ok.inj (congrArg Prod.fst hrun))
          exact .incorrectType hd hv
      | asks =>
          obtain ⟨answer, -, hanswer⟩ := bind_pure_eq_ok_iff.mp hrun
          obtain ⟨-, rfl⟩ := ofAnswer_eq_some_iff.mp hanswer
          exact .checkerFailed _
      | literal =>
          obtain ⟨matched, -, hanswer⟩ := bind_pure_eq_ok_iff.mp hrun
          obtain ⟨-, rfl⟩ := ofBool_eq_some_iff.mp hanswer
          exact .incorrectValue hd hv
      | elements hdemand =>
          rw [elements, firstMismatch_eq_iff (mismatch_ne_pass m)] at hrun
          obtain ⟨⟨item, i⟩, w₁, hreaches, hentry⟩ := hrun
          have hitem := List.mk_mem_zipIdx_iff_getElem?.mp hreaches.mem
          obtain ⟨outcome, htest, houtcome⟩ := bind_pure_eq_ok_iff.mp hentry
          obtain ⟨inner, rfl, rfl⟩ := Option.map_eq_some_iff.mp houtcome
          refine .arrayError
            (hinner _ _ (.element hdemand (List.mem_of_getElem? hitem)) htest) ?_
          have hlisted : (int (0 + i : Nat), item) ∈ positions 0 _ :=
            mem_positions_iff.mpr ⟨i, rfl, hitem⟩
          rw [Nat.zero_add] at hlisted
          exact hfound hv (.key hlisted)
      | values hdemand hvalue =>
          obtain ⟨entry, w₁, hreaches, hentry⟩ := eachMember_eq_mismatch_iff.mp hrun
          have hmem := hreaches.mem
          obtain ⟨outcome, htest, houtcome⟩ := bind_pure_eq_ok_iff.mp hentry
          obtain ⟨inner, rfl, rfl⟩ := Option.map_eq_some_iff.mp houtcome
          exact .recordError (hinner _ _ (.value hdemand hvalue hmem) htest) (hfound hv (.key hmem))
      | alternatives hdemand =>
          obtain ⟨outcome, hrejections, houtcome⟩ := bind_pure_eq_ok_iff.mp hrun
          obtain ⟨errors, rfl, rfl⟩ := Option.map_eq_some_iff.mp houtcome
          refine .unionNoMatch fun problem hproblem => ?_
          obtain ⟨schema, hschema, w₁, w₂, htest⟩ := exists_of_rejections hrejections hproblem
          exact hinner _ _ (.alternative hdemand hschema) htest
      | shape hdemand hvalue =>
          have hkeyed : Keyed d v d d := .shape hdemand hvalue
          rw [exactShape_eq_iff (mismatch_ne_pass m)] at hrun
          rcases hrun with hrequired | ⟨w₁, -, hmembers⟩
          · exact required_within hfound hd hkeyed hrequired
          · exact members_within hfound hv hkeyed hinner hmembers
      | optional hdemand hvalue =>
          have hkeyed : Keyed d v (.dict _) (.dict _) := .optional hdemand hvalue
          rw [optionalObject_eq_iff (mismatch_ne_pass m)] at hrun
          rcases hrun with hmembers | ⟨w₁, -, hrequired | ⟨w₂, -, hmembers⟩⟩
          · exact members_within hfound hv hkeyed hinner hmembers
          · exact required_within hfound hd hkeyed hrequired
          · exact members_within hfound hv hkeyed hinner hmembers
      | unknown =>
          obtain ⟨shown, w₁, -, hthrow⟩ := bind_eq_ok_iff.mp hrun
          simp at hthrow

end Check

end ShapeCheck
