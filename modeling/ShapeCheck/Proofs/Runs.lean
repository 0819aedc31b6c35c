import Mathlib.Logic.Relation
import ShapeCheck.Check

/-!
# How runs unfold

A run hands its surroundings on from part to part and ends early at a fault.  The lemmas
here tell what a composed run does from what its parts do.

The main statements are about the two traversals.  A traversal that wants every item to
pass is decided by the first item that does not, and one that wants some item to pass is
decided by the first item that does; either item runs in the surroundings that the items
before it leave behind.
-/

namespace ShapeCheck

theorem exists_bind_ok {α β : Type} {x : Except Fault α} {f : α → Except Fault β}
    (hx : ∃ a, x = .ok a) (hf : ∀ a, ∃ b, f a = .ok b) : ∃ b, (x >>= f) = .ok b := by
  obtain ⟨a, rfl⟩ := hx
  exact hf a

theorem bind_ok_iff {α β : Type} {x : Except Fault α} {f : α → Except Fault β} {b : β} :
    (x >>= f) = .ok b ↔ ∃ a, x = .ok a ∧ f a = .ok b := by
  cases x <;> simp [bind, Except.bind]

end ShapeCheck

namespace ShapeCheck.Run

variable {σ α β : Type} {w w' : World σ}

/-- What a run answers when it is started in given surroundings, with the surroundings
that it leaves behind. -/
def startedIn (run : Run σ α) (w : World σ) : Except Fault α × World σ := run w

@[simp]
theorem pure_startedIn (a : α) (w : World σ) : (pure a : Run σ α).startedIn w = (.ok a, w) := rfl

@[simp]
theorem throw_startedIn (fault : Fault) (w : World σ) :
    (throw fault : Run σ α).startedIn w = (.error fault, w) := rfl

@[simp]
theorem lift_startedIn (answer : Except Fault α) (w : World σ) :
    (lift answer).startedIn w = (answer, w) := rfl

theorem bind_startedIn (first : Run σ α) (next : α → Run σ β) (w : World σ) :
    (first >>= next).startedIn w =
      match first.startedIn w with
      | (.ok a, w₁) => (next a).startedIn w₁
      | (.error fault, w₁) => (.error fault, w₁) := by
  change (match first w with | (a, w₁) => ExceptT.bindCont next a w₁) = _
  rw [startedIn]
  rcases first w with ⟨_ | _, _⟩ <;> rfl

/-- A run that ends in a fault does so in its first part or in what follows it. -/
theorem bind_eq_error_iff {first : Run σ α} {next : α → Run σ β} {fault : Fault} :
    (first >>= next).startedIn w = (.error fault, w') ↔
      first.startedIn w = (.error fault, w') ∨
        ∃ a w₁, first.startedIn w = (.ok a, w₁) ∧
          (next a).startedIn w₁ = (.error fault, w') := by
  rw [bind_startedIn]
  rcases first.startedIn w with ⟨fault' | a, w₁⟩
  · simp
  · simp [and_assoc]

theorem bind_eq_ok_iff {first : Run σ α} {next : α → Run σ β} {b : β} :
    (first >>= next).startedIn w = (.ok b, w') ↔
      ∃ a w₁, first.startedIn w = (.ok a, w₁) ∧ (next a).startedIn w₁ = (.ok b, w') := by
  rw [bind_startedIn]
  rcases first.startedIn w with ⟨fault | a, w₁⟩
  · simp
  · simp [and_assoc]

theorem bind_pure_eq_error_iff {first : Run σ α} {g : α → β} {fault : Fault} :
    (first >>= fun a => pure (g a)).startedIn w = (.error fault, w') ↔
      first.startedIn w = (.error fault, w') := by
  rw [bind_eq_error_iff]
  simp

theorem bind_pure_eq_ok_iff {first : Run σ α} {g : α → β} {b : β} :
    (first >>= fun a => pure (g a)).startedIn w = (.ok b, w') ↔
      ∃ a, first.startedIn w = (.ok a, w') ∧ g a = b := by
  rw [bind_eq_ok_iff]
  constructor
  · rintro ⟨a, w₁, hfirst, hpure⟩
    obtain ⟨hb, rfl⟩ := Prod.mk.inj hpure
    exact ⟨a, hfirst, Except.ok.inj hb⟩
  · rintro ⟨a, hfirst, rfl⟩
    exact ⟨a, w', hfirst, rfl⟩

/-! ## Two tests in a row -/

theorem error_ne_pass (fault : Fault) : (.error fault : Except Fault Outcome) ≠ .ok none :=
  nofun

theorem mismatch_ne_pass (problem : Problem) :
    (.ok (some problem) : Except Fault Outcome) ≠ .ok none :=
  nofun

/-- Two tests in a row end as the first one, or else, if it passes, as the second. -/
theorem bind_mismatch_eq_iff {first rest : Run σ Outcome} {answer : Except Fault Outcome}
    (hanswer : answer ≠ .ok none) :
    (first >>= fun outcome =>
      match outcome with
      | some problem => pure (some problem)
      | none => rest).startedIn w = (answer, w') ↔
      first.startedIn w = (answer, w') ∨
        ∃ w₁, first.startedIn w = (.ok none, w₁) ∧ rest.startedIn w₁ = (answer, w') := by
  rw [bind_startedIn]
  rcases first.startedIn w with ⟨fault | _ | problem, w₁⟩
  · simp
  · simp [hanswer.symm]
  · simp

theorem bind_mismatch_eq_ok_none_iff {first rest : Run σ Outcome} :
    (first >>= fun outcome =>
      match outcome with
      | some problem => pure (some problem)
      | none => rest).startedIn w = (.ok none, w') ↔
      ∃ w₁, first.startedIn w = (.ok none, w₁) ∧ rest.startedIn w₁ = (.ok none, w') := by
  rw [bind_startedIn]
  rcases first.startedIn w with ⟨fault | _ | problem, w₁⟩ <;> simp

/-! ## Traversals that want every item to pass -/

@[simp]
theorem firstMismatch_nil (test : α → Run σ Outcome) (w : World σ) :
    (firstMismatch test []).startedIn w = (.ok none, w) := rfl

theorem firstMismatch_cons (test : α → Run σ Outcome) (item : α) (rest : List α)
    (w : World σ) :
    (firstMismatch test (item :: rest)).startedIn w =
      match (test item).startedIn w with
      | (.ok none, w₁) => (firstMismatch test rest).startedIn w₁
      | answer => answer := by
  rw [firstMismatch, bind_startedIn]
  rcases (test item).startedIn w with ⟨_ | _ | _, _⟩ <;> rfl

/-- A traversal comes to an item, in the last surroundings, after all items before it
passed. -/
inductive Reaches (test : α → Run σ Outcome) (items : List α) (w : World σ) :
    α → World σ → Prop
  | intro (before after : List α) {item : α} {w₁ : World σ}
      (hitems : items = before ++ item :: after)
      (hbefore : (firstMismatch test before).startedIn w = (.ok none, w₁)) :
      Reaches test items w item w₁

theorem Reaches.mem {test : α → Run σ Outcome} {items : List α} {item : α}
    (h : Reaches test items w item w') : item ∈ items := by
  obtain ⟨before, after, rfl, -⟩ := h
  simp

/-- A traversal that ends otherwise than by passing every item ends as the first item
that does not pass. -/
theorem firstMismatch_eq_iff {test : α → Run σ Outcome} {items : List α}
    {answer : Except Fault Outcome} (hanswer : answer ≠ .ok none) :
    (firstMismatch test items).startedIn w = (answer, w') ↔
      ∃ item w₁, Reaches test items w item w₁ ∧ (test item).startedIn w₁ = (answer, w') := by
  induction items generalizing w with
  | nil =>
      constructor
      · intro hrun
        exact absurd (congrArg Prod.fst hrun).symm hanswer
      · rintro ⟨item, w₁, hreaches, -⟩
        cases hreaches.mem
  | cons head tail ih =>
      rw [firstMismatch_cons]
      constructor
      · intro hrun
        split at hrun
        next w₁ hhead =>
          obtain ⟨item, w₂, ⟨before, after, rfl, hbefore⟩, hitem⟩ := ih.mp hrun
          refine ⟨item, w₂, ⟨head :: before, after, rfl, ?_⟩, hitem⟩
          rw [firstMismatch_cons, hhead]
          exact hbefore
        next => exact ⟨head, w, ⟨[], tail, rfl, rfl⟩, hrun⟩
      · rintro ⟨item, w₁, ⟨before, after, hitems, hbefore⟩, hitem⟩
        cases before with
        | nil =>
            obtain ⟨rfl, rfl⟩ := List.cons.inj hitems
            obtain rfl : w = w₁ := congrArg Prod.snd hbefore
            rw [hitem]
            split
            next h => exact absurd (congrArg Prod.fst h) hanswer
            next => rfl
        | cons first before =>
            obtain ⟨rfl, rfl⟩ := List.cons.inj hitems
            rw [firstMismatch_cons] at hbefore
            split at hbefore
            next w₂ hhead => exact ih.mpr ⟨item, w₁, ⟨before, after, rfl, hbefore⟩, hitem⟩
            next hother => exact absurd hbefore (hother w₁)

/-- Testing the members of a listing ends otherwise than by passing either at a member
or, after all members passed, at the fault that ends the listing. -/
theorem eachMember_eq_iff {listing : Listing} {test : Value × Value → Run σ Outcome}
    {answer : Except Fault Outcome} (hanswer : answer ≠ .ok none) :
    (eachMember listing test).startedIn w = (answer, w') ↔
      (firstMismatch test listing.members).startedIn w = (answer, w') ∨
        (firstMismatch test listing.members).startedIn w = (.ok none, w') ∧
          ∃ fault, listing.fault = some fault ∧ answer = .error fault := by
  rw [eachMember, bind_startedIn]
  rcases (firstMismatch test listing.members).startedIn w with ⟨fault | _ | problem, w₁⟩
  · simp
  · cases hfault : listing.fault with
    | none => simp [hanswer.symm]
    | some fault => simp [hanswer, and_comm, eq_comm]
  · simp

/-- It fails at the first member that does not pass, or at the end of the listing. -/
theorem eachMember_eq_error_iff {listing : Listing} {test : Value × Value → Run σ Outcome}
    {fault : Fault} :
    (eachMember listing test).startedIn w = (.error fault, w') ↔
      (∃ entry w₁, Reaches test listing.members w entry w₁ ∧
        (test entry).startedIn w₁ = (.error fault, w')) ∨
      (firstMismatch test listing.members).startedIn w = (.ok none, w') ∧
        listing.fault = some fault := by
  rw [eachMember_eq_iff (error_ne_pass fault), firstMismatch_eq_iff (error_ne_pass fault)]
  simp

/-- It ends in a mismatch at the first member that does not pass. -/
theorem eachMember_eq_mismatch_iff {listing : Listing} {test : Value × Value → Run σ Outcome}
    {problem : Problem} :
    (eachMember listing test).startedIn w = (.ok (some problem), w') ↔
      ∃ entry w₁, Reaches test listing.members w entry w₁ ∧
        (test entry).startedIn w₁ = (.ok (some problem), w') := by
  rw [eachMember_eq_iff (mismatch_ne_pass problem), firstMismatch_eq_iff (mismatch_ne_pass problem)]
  simp

theorem eachMember_eq_ok_none_iff {listing : Listing}
    {test : Value × Value → Run σ Outcome} :
    (eachMember listing test).startedIn w = (.ok none, w') ↔
      (firstMismatch test listing.members).startedIn w = (.ok none, w') ∧
        listing.fault = none := by
  rw [eachMember, bind_startedIn]
  rcases (firstMismatch test listing.members).startedIn w with ⟨fault | _ | problem, w₁⟩
  · simp
  · cases hfault : listing.fault with
    | none => simp
    | some fault => simp
  · simp

/-! ## Traversals that want some item to pass -/

@[simp]
theorem rejections_nil (test : α → Run σ Outcome) (w : World σ) :
    (rejections test []).startedIn w = (.ok (some []), w) := rfl

theorem rejections_cons (test : α → Run σ Outcome) (item : α) (rest : List α) :
    rejections test (item :: rest) = test item >>= fun outcome =>
      match outcome with
      | none => pure none
      | some problem => rejections test rest >>= fun problems =>
        pure (problems.map (problem :: ·)) := rfl

variable {test : α → Run σ Outcome} {item : α} {rest : List α}

theorem rejections_cons_eq_none_iff :
    (rejections test (item :: rest)).startedIn w = (.ok none, w') ↔
      (test item).startedIn w = (.ok none, w') ∨
        ∃ problem w₁, (test item).startedIn w = (.ok (some problem), w₁) ∧
          (rejections test rest).startedIn w₁ = (.ok none, w') := by
  rw [rejections_cons, bind_startedIn]
  rcases (test item).startedIn w with ⟨fault | _ | problem, w₁⟩
  · simp
  · simp
  · dsimp only
    rw [bind_pure_eq_ok_iff]
    simp [and_assoc]

theorem rejections_cons_eq_some_iff {problems : List Problem} :
    (rejections test (item :: rest)).startedIn w = (.ok (some problems), w') ↔
      ∃ problem w₁ more, (test item).startedIn w = (.ok (some problem), w₁) ∧
        (rejections test rest).startedIn w₁ = (.ok (some more), w') ∧
        problem :: more = problems := by
  rw [rejections_cons, bind_startedIn]
  rcases (test item).startedIn w with ⟨fault | _ | problem, w₁⟩
  · simp
  · simp
  · dsimp only
    rw [bind_pure_eq_ok_iff]
    simp only [Option.map_eq_some_iff]
    constructor
    · rintro ⟨_, hrest, more, rfl, rfl⟩
      exact ⟨problem, w₁, more, rfl, hrest, rfl⟩
    · rintro ⟨_, _, more, hhead, hrest, rfl⟩
      cases hhead
      exact ⟨some more, hrest, more, rfl, rfl⟩

theorem rejections_cons_eq_error_iff {fault : Fault} :
    (rejections test (item :: rest)).startedIn w = (.error fault, w') ↔
      (test item).startedIn w = (.error fault, w') ∨
        ∃ problem w₁, (test item).startedIn w = (.ok (some problem), w₁) ∧
          (rejections test rest).startedIn w₁ = (.error fault, w') := by
  rw [rejections_cons, bind_startedIn]
  rcases (test item).startedIn w with ⟨fault' | _ | problem, w₁⟩
  · simp
  · simp
  · dsimp only
    rw [bind_pure_eq_error_iff]
    simp [and_assoc]

/-- A traversal of alternatives ends in a fault at the first item that does not reject. -/
theorem rejections_eq_error_iff {items : List α} {fault : Fault} :
    (rejections test items).startedIn w = (.error fault, w') ↔
      ∃ before item after problems w₁, items = before ++ item :: after ∧
        (rejections test before).startedIn w = (.ok (some problems), w₁) ∧
          (test item).startedIn w₁ = (.error fault, w') := by
  induction items generalizing w with
  | nil => simp
  | cons head tail ih =>
      rw [rejections_cons_eq_error_iff]
      constructor
      · rintro (hhead | ⟨problem, w₁, hhead, htail⟩)
        · exact ⟨[], head, tail, [], w, rfl, rfl, hhead⟩
        · obtain ⟨before, item, after, problems, w₂, rfl, hbefore, hitem⟩ := ih.mp htail
          refine ⟨head :: before, item, after, problem :: problems, w₂, rfl, ?_, hitem⟩
          exact rejections_cons_eq_some_iff.mpr ⟨problem, w₁, problems, hhead, hbefore, rfl⟩
      · rintro ⟨before, item, after, problems, w₁, hitems, hbefore, hitem⟩
        cases before with
        | nil =>
            obtain ⟨rfl, rfl⟩ := List.cons.inj hitems
            obtain rfl : w = w₁ := congrArg Prod.snd hbefore
            exact .inl hitem
        | cons first before =>
            obtain ⟨rfl, rfl⟩ := List.cons.inj hitems
            obtain ⟨problem, w₂, more, hfirst, hmore, -⟩ := rejections_cons_eq_some_iff.mp hbefore
            have htail := ih.mpr ⟨before, item, after, more, w₁, rfl, hmore, hitem⟩
            exact .inr ⟨problem, w₂, hfirst, htail⟩

end ShapeCheck.Run

namespace ShapeCheck

/-- A caller whose predicates and operations always answer true. -/
def agreeable : Host Unit where
  predicate _ _ state := (.ok (.bool true), state)
  operation _ _ _ := .ok (.bool true)

/-- Surroundings in which nothing has happened yet, under the standard settings. -/
def calm : World Unit where
  predicates := ()
  calls := []
  environment := ⟨"", [], none⟩
  cached := some .standard
  logging := .unconfigured
  clock := ⟨"", ""⟩
  events := []

end ShapeCheck
