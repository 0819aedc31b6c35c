import Mathlib.Data.List.Forall2
import ShapeCheck.Proofs.Runs

/-!
# Runs that settle

A run settles on an answer in a set of surroundings if it gives that answer from all of
them and leaves surroundings of the set behind.  This is what it means for a predicate to
be pure: it may write to the log or count its calls, but nothing that it leaves behind
makes a difference to what is asked later.

A traversal of settled tests is settled itself, and tells every answer that it has seen.
-/

namespace ShapeCheck.Run

variable {σ α β : Type} {W : World σ → Prop} {w w' : World σ}

/-- A run gives one answer in all surroundings of `W`, and stays within `W`. -/
def Settles (W : World σ → Prop) (run : Run σ α) (answer : Except Fault α) : Prop :=
  ∀ w, W w → ∃ w', W w' ∧ run.startedIn w = (answer, w')

/-- A run settles on some answer. -/
def Settled (W : World σ → Prop) (run : Run σ α) : Prop :=
  ∃ answer, Settles W run answer

theorem Settles.unique {run : Run σ α} {a b : Except Fault α} (hw : W w)
    (ha : Settles W run a) (hb : Settles W run b) : a = b := by
  obtain ⟨w₁, -, ha⟩ := ha w hw
  obtain ⟨w₂, -, hb⟩ := hb w hw
  exact congrArg Prod.fst (ha.symm.trans hb)

/-- A settled run settles on what it answers once. -/
theorem Settled.settles {run : Run σ α} {answer : Except Fault α} (h : Settled W run)
    (hw : W w) (hrun : run.startedIn w = (answer, w')) : Settles W run answer ∧ W w' := by
  obtain ⟨answer', h⟩ := h
  obtain ⟨w₁, hw₁, hrun'⟩ := h w hw
  obtain ⟨rfl, rfl⟩ := Prod.mk.inj (hrun.symm.trans hrun')
  exact ⟨h, hw₁⟩

/-! ## Composed runs -/

theorem settles_lift (answer : Except Fault α) : Settles W (lift answer) answer := by
  intro w hw
  exact ⟨w, hw, rfl⟩

theorem settles_pure (a : α) : Settles W (pure a : Run σ α) (.ok a) := by
  intro w hw
  exact ⟨w, hw, rfl⟩

theorem settles_throw (fault : Fault) : Settles W (throw fault : Run σ α) (.error fault) := by
  intro w hw
  exact ⟨w, hw, rfl⟩

theorem Settles.bind_ok {first : Run σ α} {next : α → Run σ β} {a : α}
    {answer : Except Fault β} (hfirst : Settles W first (.ok a))
    (hnext : Settles W (next a) answer) : Settles W (first >>= next) answer := by
  intro w hw
  obtain ⟨w₁, hw₁, hfirst⟩ := hfirst w hw
  obtain ⟨w₂, hw₂, hnext⟩ := hnext w₁ hw₁
  refine ⟨w₂, hw₂, ?_⟩
  rw [bind_startedIn, hfirst]
  exact hnext

theorem Settles.bind_error {first : Run σ α} {next : α → Run σ β} {fault : Fault}
    (hfirst : Settles W first (.error fault)) : Settles W (first >>= next) (.error fault) := by
  intro w hw
  obtain ⟨w₁, hw₁, hfirst⟩ := hfirst w hw
  refine ⟨w₁, hw₁, ?_⟩
  rw [bind_startedIn, hfirst]

theorem Settled.bind {first : Run σ α} {next : α → Run σ β} (hfirst : Settled W first)
    (hnext : ∀ a, Settled W (next a)) : Settled W (first >>= next) := by
  obtain ⟨answer, hfirst⟩ := hfirst
  cases answer with
  | error fault => exact ⟨_, hfirst.bind_error⟩
  | ok a =>
      obtain ⟨answer, hnext⟩ := hnext a
      exact ⟨_, hfirst.bind_ok hnext⟩

theorem Settled.bind_pure {first : Run σ α} (hfirst : Settled W first) (g : α → β) :
    Settled W (first >>= fun a => pure (g a)) := by
  apply hfirst.bind
  intro a
  exact ⟨_, settles_pure (g a)⟩

/-- A test whose mismatches are wrapped passes only where the test itself does. -/
theorem Settled.pass_of_wrapped {test : Run σ Outcome} {wrap : Problem → Problem}
    (htest : Settled W test) (hw : W w)
    (h : Settles W (test >>= fun outcome => pure (outcome.map wrap)) (.ok none)) :
    Settles W test (.ok none) := by
  obtain ⟨w₁, -, hrun⟩ := h w hw
  obtain ⟨outcome, htested, houtcome⟩ := bind_pure_eq_ok_iff.mp hrun
  rw [Option.map_eq_none_iff] at houtcome
  exact (htest.settles hw (houtcome ▸ htested)).1

/-- Two tests in a row are settled if both are. -/
theorem Settled.bind_mismatch {first rest : Run σ Outcome} (hfirst : Settled W first)
    (hrest : Settled W rest) :
    Settled W (first >>= fun outcome =>
      match outcome with
      | some problem => pure (some problem)
      | none => rest) := by
  apply hfirst.bind
  intro outcome
  cases outcome with
  | none => exact hrest
  | some problem => exact ⟨_, settles_pure _⟩

/-! ## Traversals -/

variable {test : α → Run σ Outcome} {items : List α}

theorem firstMismatch_settled (htests : ∀ item ∈ items, Settled W (test item)) :
    Settled W (firstMismatch test items) := by
  induction items with
  | nil => exact ⟨_, settles_pure none⟩
  | cons head tail ih =>
      have hhead := htests head List.mem_cons_self
      have htail := ih fun item hitem => htests item (List.mem_cons_of_mem _ hitem)
      exact hhead.bind_mismatch htail

theorem eachMember_settled {listing : Listing} {test : Value × Value → Run σ Outcome}
    (htests : ∀ m ∈ listing.members, Settled W (test m)) :
    Settled W (eachMember listing test) := by
  apply (firstMismatch_settled htests).bind_mismatch
  cases listing.fault with
  | none => exact ⟨_, settles_pure none⟩
  | some fault => exact ⟨_, settles_throw fault⟩

theorem rejections_settled (htests : ∀ item ∈ items, Settled W (test item)) :
    Settled W (rejections test items) := by
  induction items with
  | nil => exact ⟨_, settles_pure _⟩
  | cons head tail ih =>
      have hhead := htests head List.mem_cons_self
      have htail := ih fun item hitem => htests item (List.mem_cons_of_mem _ hitem)
      apply hhead.bind
      intro outcome
      cases outcome with
      | none => exact ⟨_, settles_pure none⟩
      | some problem => exact htail.bind_pure _

/-- Where a traversal passes, every test settles on passing. -/
theorem settles_of_firstMismatch_pass (htests : ∀ item ∈ items, Settled W (test item))
    (hw : W w) (hrun : (firstMismatch test items).startedIn w = (.ok none, w')) :
    (∀ item ∈ items, Settles W (test item) (.ok none)) ∧ W w' := by
  induction items generalizing w with
  | nil =>
      obtain rfl := congrArg Prod.snd hrun
      exact ⟨by simp, hw⟩
  | cons head tail ih =>
      rw [firstMismatch_cons] at hrun
      split at hrun
      next w₁ hhead =>
        obtain ⟨hhead, hw₁⟩ := (htests head List.mem_cons_self).settles hw hhead
        have htail := fun item hitem => htests item (List.mem_cons_of_mem _ hitem)
        obtain ⟨hall, hw'⟩ := ih htail hw₁ hrun
        exact ⟨List.forall_mem_cons.mpr ⟨hhead, hall⟩, hw'⟩
      next hother => exact absurd hrun (hother w')

/-- What a traversal of settled tests comes to is an item after which only passing tests
lie behind it. -/
theorem Reaches.settles {item : α} (htests : ∀ item ∈ items, Settled W (test item))
    (hw : W w) (h : Reaches test items w item w') :
    ∃ before after, items = before ++ item :: after ∧
      (∀ earlier ∈ before, Settles W (test earlier) (.ok none)) ∧ W w' := by
  obtain ⟨before, after, rfl, hbefore⟩ := h
  have hearlier : ∀ earlier ∈ before, Settled W (test earlier) := by
    intro earlier hmem
    exact htests earlier (List.mem_append_left _ hmem)
  obtain ⟨hpassed, hw'⟩ := settles_of_firstMismatch_pass hearlier hw hbefore
  exact ⟨before, after, rfl, hpassed, hw'⟩

/-- Where a traversal of alternatives ends without mismatches, some test passes. -/
theorem settles_of_rejections_none (htests : ∀ item ∈ items, Settled W (test item))
    (hw : W w) (hrun : (rejections test items).startedIn w = (.ok none, w')) :
    ∃ item ∈ items, Settles W (test item) (.ok none) := by
  induction items generalizing w with
  | nil => simp at hrun
  | cons head tail ih =>
      have hhead := htests head List.mem_cons_self
      have htail := fun item hitem => htests item (List.mem_cons_of_mem _ hitem)
      rcases rejections_cons_eq_none_iff.mp hrun with hpass | ⟨problem, w₁, hreject, hrest⟩
      · exact ⟨head, List.mem_cons_self, (hhead.settles hw hpass).1⟩
      · obtain ⟨item, hitem, hpass⟩ := ih htail (hhead.settles hw hreject).2 hrest
        exact ⟨item, List.mem_cons_of_mem _ hitem, hpass⟩

/-- Where it ends with mismatches, these are what the tests settle on, in order. -/
theorem settles_of_rejections_some {problems : List Problem}
    (htests : ∀ item ∈ items, Settled W (test item)) (hw : W w)
    (hrun : (rejections test items).startedIn w = (.ok (some problems), w')) :
    List.Forall₂ (fun item problem => Settles W (test item) (.ok (some problem)))
      items problems := by
  induction items generalizing w problems with
  | nil =>
      obtain rfl : [] = problems := by simpa using congrArg Prod.fst hrun
      exact .nil
  | cons head tail ih =>
      have hhead := htests head List.mem_cons_self
      have htail := fun item hitem => htests item (List.mem_cons_of_mem _ hitem)
      obtain ⟨problem, w₁, more, hreject, hrest, rfl⟩ := rejections_cons_eq_some_iff.mp hrun
      obtain ⟨hreject, hw₁⟩ := hhead.settles hw hreject
      exact .cons hreject (ih htail hw₁ hrest)

end ShapeCheck.Run
