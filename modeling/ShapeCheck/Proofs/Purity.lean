import ShapeCheck.Proofs.Recordings

/-!
# Checks with pure predicates

Where every predicate that a check may ask is settled, the check is settled itself
(`check_settled`): it accepts, rejects or fails in one way, whatever was checked before.

Predicates that answer by their argument alone are pure as long as the settings stay as
they are and ask for no log of failures (`pure_of_answers`).  Guards read the settings,
so nothing less would do.
-/

namespace ShapeCheck.Check

open Run

variable {σ : Type} {host : Host σ} {W : World σ → Prop} {d v d' v' p : Value}

/-- Every predicate that a check may ask gives one answer. -/
def Pure (host : Host σ) (W : World σ → Prop) (d v : Value) : Prop :=
  ∀ d' v', Part (d, v) (d', v') → ∀ p, Asks d' v' p → Settled W (call host p v')

/-- Every predicate that a check may ask gives one answer, and does not fail. -/
def Answering (host : Host σ) (W : World σ → Prop) (d v : Value) : Prop :=
  ∀ d' v', Part (d, v) (d', v') → ∀ p, Asks d' v' p →
    ∃ answer, Settles W (call host p v') (.ok answer)

/-- A check accepts, in all surroundings of `W`. -/
def Accepts (host : Host σ) (W : World σ → Prop) (d v : Value) : Prop :=
  Settles W (check host d v) (.ok none)

/-- A check rejects with one mismatch, in all surroundings of `W`. -/
def Rejects (host : Host σ) (W : World σ → Prop) (d v : Value) (problem : Problem) : Prop :=
  Settles W (check host d v) (.ok (some problem))

theorem Answering.pure (h : Answering host W d v) : Pure host W d v := by
  intro d' v' hpart p hasks
  obtain ⟨answer, hanswer⟩ := h d' v' hpart p hasks
  exact ⟨.ok answer, hanswer⟩

theorem Pure.next (h : Pure host W d v) (hnext : Next (d, v) (d', v')) : Pure host W d' v' := by
  intro d'' v'' hpart
  exact h d'' v'' (.head hnext hpart)

theorem Pure.settled_call (h : Pure host W d v) (hasks : Asks d v p) :
    Settled W (call host p v) :=
  h d v .refl p hasks

theorem Accepts.not_rejects {w : World σ} (hw : W w) (h : Accepts host W d v)
    (problem : Problem) : ¬ Rejects host W d v problem := by
  intro hrejects
  exact absurd (h.unique hw hrejects) (by simp)

/-! ## Passes over keys -/

section

variable {rec : Value → Value → Run σ Outcome} {shape : Value} {strict : Bool}

theorem member_settled {entry : Value × Value}
    (hrec : ∀ schema, shape.Assigns entry.1 schema → Settled W (rec schema entry.2)) :
    Settled W (member rec shape strict entry) := by
  obtain ⟨key, item⟩ := entry
  rcases shape.key_cases key with ⟨schema, hkey⟩ | ⟨schema, hkey⟩ | hkey | ⟨fault, hkey⟩
  · rw [member_of_holds hkey]
    exact (hrec schema (.inl hkey)).bind_pure _
  · rw [member_of_covers hkey]
    apply (hrec schema (.inr hkey)).bind
    intro outcome
    cases outcome with
    | none => exact ⟨_, settles_pure none⟩
    | some problem => exact Settled.bind_pure ⟨_, settles_lift _⟩ _
  · rw [member_of_leaves hkey]
    exact ⟨_, settles_pure _⟩
  · rw [member_of_error hkey]
    exact ⟨_, settles_throw fault⟩

theorem members_settled
    (hrec : ∀ entry ∈ v.listing.members, ∀ schema, shape.Assigns entry.1 schema →
      Settled W (rec schema entry.2)) :
    Settled W (members rec shape v strict) :=
  eachMember_settled fun entry hentry => member_settled (hrec entry hentry)

theorem present_settled (entry : Value × Value) : Settled W (present (σ := σ) v entry) := by
  cases hentry : entry.1.isWildcard with
  | true =>
      rw [present_of_wildcard hentry]
      exact ⟨_, settles_pure none⟩
  | false =>
      rw [present_of_ne_wildcard hentry]
      exact Settled.bind_pure ⟨_, settles_lift _⟩ _

theorem required_settled : Settled W (required (σ := σ) shape v) :=
  eachMember_settled fun entry _ => present_settled entry

end

/-! ## Checks -/

theorem settled_sequential : Sequential (σ := σ) (Settled W) where
  lift answer := ⟨answer, settles_lift answer⟩
  bind hrun hnext := hrun.bind hnext

theorem check_settled (hpure : Pure host W d v) : Settled W (check host d v) :=
  settled_sequential.check hpure

/-- With pure predicates, what a check does once it does always. -/
theorem Pure.settles (hpure : Pure host W d v) {w w' : World σ} (hw : W w)
    {answer : Except Fault Outcome} (hrun : (check host d v).startedIn w = (answer, w')) :
    Settles W (check host d v) answer ∧ W w' :=
  (check_settled hpure).settles hw hrun

/-! ## Predicates that answer by their argument -/

/-- Predicates that repeat themselves are pure. -/
theorem Repeatable.pure (h : Repeatable host W d v) : Pure host W d v :=
  fun d' v' hpart p hasks => (h d' v' hpart p hasks).settled

/-- Predicates that answer by their argument alone are pure, under settings that ask for
no log of failures. -/
theorem pure_of_answers {settings : Settings} (answers : Nat → Value → Except Fault Value)
    (hhost : ∀ mark v s, (host.predicate mark v s).1 = answers mark v)
    (hlog : settings.logFailures = false) (d v : Value) :
    Pure host (fun w => w.cached = some settings) d v :=
  (repeatable_of_answers answers hhost hlog d v).pure

/-- A caller whose predicates always agree is pure under the standard settings. -/
theorem agreeable_pure (d v : Value) :
    Pure agreeable (fun w => w.cached = some .standard) d v :=
  (agreeable_repeatable d v).pure

end ShapeCheck.Check
