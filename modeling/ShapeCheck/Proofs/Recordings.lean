import ShapeCheck.Proofs.Queries
import ShapeCheck.Proofs.Settled

/-!
# Runs that always record the same calls

A run that settles gives one answer in all surroundings of a set.  It repeats itself if it
also records the same calls in all of them.  Where every predicate that a check may ask
repeats itself, the check does too (`check_repeats`), and then the calls of a traversal are
those of its items one after another, up to the item that ends it.
-/

namespace ShapeCheck

namespace Run

variable {σ α β : Type} {W : World σ → Prop} {w w' : World σ}

/-- The calls that a run records when it is started in given surroundings. -/
def recorded (run : Run σ α) (w : World σ) : List Call :=
  (run.startedIn w).2.calls.drop w.calls.length

/-- A run gives one answer and records the same calls in all surroundings of `W`, and stays
within `W`. -/
def RecordsCalls (W : World σ → Prop) (run : Run σ α) (answer : Except Fault α)
    (calls : List Call) : Prop :=
  ∀ w, W w → ∃ w', W w' ∧ run.startedIn w = (answer, w') ∧ w'.calls = w.calls ++ calls

/-- A run always does the same. -/
def Repeats (W : World σ → Prop) (run : Run σ α) : Prop :=
  ∃ answer calls, RecordsCalls W run answer calls

theorem RecordsCalls.settles {run : Run σ α} {answer : Except Fault α} {calls : List Call}
    (h : RecordsCalls W run answer calls) : Settles W run answer := by
  intro w hw
  obtain ⟨w', hw', hrun, -⟩ := h w hw
  exact ⟨w', hw', hrun⟩

theorem Repeats.settled {run : Run σ α} (h : Repeats W run) : Settled W run := by
  obtain ⟨answer, calls, h⟩ := h
  exact ⟨answer, h.settles⟩

theorem recorded_of_calls {run : Run σ α} {calls : List Call}
    (h : (run.startedIn w).2.calls = w.calls ++ calls) : recorded run w = calls := by
  rw [recorded, h, List.drop_left]

theorem RecordsCalls.recorded_eq {run : Run σ α} {answer : Except Fault α} {calls : List Call}
    (h : RecordsCalls W run answer calls) (hw : W w) : recorded run w = calls := by
  obtain ⟨w', -, hrun, hcalls⟩ := h w hw
  apply recorded_of_calls
  rw [hrun, hcalls]

/-- What a run that repeats itself records once it records always. -/
theorem Repeats.records {run : Run σ α} (h : Repeats W run) (hw : W w) :
    ∃ answer, RecordsCalls W run answer (recorded run w) := by
  obtain ⟨answer, calls, h⟩ := h
  exact ⟨answer, h.recorded_eq hw ▸ h⟩

/-! ## Composed runs -/

theorem records_lift (answer : Except Fault α) : RecordsCalls W (lift answer) answer [] :=
  fun w hw => ⟨w, hw, rfl, (List.append_nil _).symm⟩

theorem RecordsCalls.bind_ok {first : Run σ α} {next : α → Run σ β} {a : α}
    {answer : Except Fault β} {calls more : List Call} (hfirst : RecordsCalls W first (.ok a) calls)
    (hnext : RecordsCalls W (next a) answer more) :
    RecordsCalls W (first >>= next) answer (calls ++ more) := by
  intro w hw
  obtain ⟨w₁, hw₁, hfirst, hcalls⟩ := hfirst w hw
  obtain ⟨w₂, hw₂, hnext, hmore⟩ := hnext w₁ hw₁
  refine ⟨w₂, hw₂, ?_, ?_⟩
  · rw [bind_startedIn, hfirst]
    exact hnext
  · rw [hmore, hcalls, List.append_assoc]

theorem RecordsCalls.bind_error {first : Run σ α} {next : α → Run σ β} {fault : Fault}
    {calls : List Call} (hfirst : RecordsCalls W first (.error fault) calls) :
    RecordsCalls W (first >>= next) (.error fault) calls := by
  intro w hw
  obtain ⟨w₁, hw₁, hfirst, hcalls⟩ := hfirst w hw
  refine ⟨w₁, hw₁, ?_, hcalls⟩
  rw [bind_startedIn, hfirst]

/-- What follows a run and makes no calls leaves its calls as they are. -/
theorem Repeats.bind_lift {first : Run σ α} {next : α → Run σ β} (hfirst : Repeats W first)
    (hw : W w) (hnext : ∀ a, ∃ answer, next a = lift answer) :
    ∃ answer, RecordsCalls W (first >>= next) answer (recorded first w) := by
  obtain ⟨fault | a, hfirst⟩ := hfirst.records hw
  · exact ⟨_, hfirst.bind_error⟩
  · obtain ⟨answer, hanswer⟩ := hnext a
    have hboth := hfirst.bind_ok (hanswer ▸ records_lift answer)
    rw [List.append_nil] at hboth
    exact ⟨answer, hboth⟩

theorem Repeats.bind {first : Run σ α} {next : α → Run σ β} (hfirst : Repeats W first)
    (hnext : ∀ a, Repeats W (next a)) : Repeats W (first >>= next) := by
  obtain ⟨fault | a, calls, hfirst⟩ := hfirst
  · exact ⟨_, _, hfirst.bind_error⟩
  · obtain ⟨answer, more, hnext⟩ := hnext a
    exact ⟨_, _, hfirst.bind_ok hnext⟩

/-! ## Traversals -/

section

variable {test : α → Run σ Outcome} {items : List α} {calls : α → List Call}
  (htests : ∀ item ∈ items, ∃ answer, RecordsCalls W (test item) answer (calls item))

include htests

/-- A traversal that passes makes the calls of all its items. -/
theorem calls_of_firstMismatch_pass (hw : W w)
    (hrun : (firstMismatch test items).startedIn w = (.ok none, w')) :
    w'.calls = w.calls ++ items.flatMap calls := by
  induction items generalizing w with
  | nil =>
      obtain rfl : w = w' := congrArg Prod.snd hrun
      simp
  | cons head tail ih =>
      rw [List.forall_mem_cons] at htests
      obtain ⟨⟨answer, hhead⟩, htail⟩ := htests
      obtain ⟨w₁, hw₁, hheadrun, hcalls⟩ := hhead w hw
      rw [firstMismatch_cons, hheadrun] at hrun
      split at hrun
      next heq =>
        obtain ⟨-, rfl⟩ := Prod.mk.inj heq
        rw [ih htail hw₁ hrun, hcalls, List.flatMap_cons, List.append_assoc]
      next hother =>
        obtain ⟨rfl, -⟩ := Prod.mk.inj hrun
        exact absurd rfl (hother w₁)

/-- A traversal that does not pass makes the calls of its items up to the first that does
not. -/
theorem calls_of_firstMismatch_stop {answer : Except Fault Outcome} (hanswer : answer ≠ .ok none)
    (hw : W w) (hrun : (firstMismatch test items).startedIn w = (answer, w')) :
    ∃ before item after, items = before ++ item :: after ∧
      (∀ earlier ∈ before, Settles W (test earlier) (.ok none)) ∧
      Settles W (test item) answer ∧
      w'.calls = w.calls ++ (before ++ [item]).flatMap calls := by
  obtain ⟨item, w₁, hreaches, hitem⟩ := (firstMismatch_eq_iff hanswer).mp hrun
  have hsettled : ∀ item ∈ items, Settled W (test item) := by
    intro item hmem
    obtain ⟨answer, h⟩ := htests item hmem
    exact ⟨answer, h.settles⟩
  obtain ⟨before, after, rfl, hbefore⟩ := hreaches
  rw [List.forall_mem_append, List.forall_mem_cons] at htests hsettled
  obtain ⟨hpassed, hw₁⟩ := settles_of_firstMismatch_pass hsettled.1 hw hbefore
  have hcalls := calls_of_firstMismatch_pass htests.1 hw hbefore
  obtain ⟨answer', hrecords⟩ := htests.2.1
  obtain ⟨w₂, -, hitem', hmore⟩ := hrecords w₁ hw₁
  obtain ⟨rfl, rfl⟩ := Prod.mk.inj (hitem'.symm.trans hitem)
  refine ⟨before, item, after, rfl, hpassed, hrecords.settles, ?_⟩
  rw [hmore, hcalls, List.flatMap_append, List.flatMap_singleton, List.append_assoc]

end

end Run

namespace Check

open Run

variable {σ : Type} {host : Host σ} {W : World σ → Prop} {d v d' v' p : Value}

/-- Every predicate that a check may ask gives one answer and records the same calls. -/
def Repeatable (host : Host σ) (W : World σ → Prop) (d v : Value) : Prop :=
  ∀ d' v', Part (d, v) (d', v') → ∀ p, Asks d' v' p → Repeats W (call host p v')

theorem Repeatable.next (h : Repeatable host W d v) (hnext : Next (d, v) (d', v')) :
    Repeatable host W d' v' :=
  fun d'' v'' hpart => h d'' v'' (.head hnext hpart)

theorem repeats_sequential : Sequential (σ := σ) (Repeats W) where
  lift answer := ⟨answer, [], records_lift answer⟩
  bind hrun hnext := hrun.bind hnext

/-- With predicates that repeat themselves, what a check does once it does always. -/
theorem check_repeats (h : Repeatable host W d v) : Repeats W (check host d v) :=
  repeats_sequential.check h

/-! ## Predicates that answer by their argument -/

variable {settings : Settings}

theorem guarded_repeats (hlog : settings.logFailures = false) {body : Run σ Outcome}
    (hbody : Repeats (fun w => w.cached = some settings) body) (name : String) :
    Repeats (fun w => w.cached = some settings) (guarded name body) := by
  have hsettings : RecordsCalls (fun w => w.cached = some settings) (Run.settings (σ := σ))
      (.ok settings) [] := by
    intro w hw
    refine ⟨w, hw, ?_, (List.append_nil _).symm⟩
    simp only [startedIn, Run.settings, hw]
  obtain ⟨fault | outcome, calls, hbody⟩ := hbody
  · exact ⟨_, _, hsettings.bind_ok hbody.bind_error⟩
  · refine ⟨.ok outcome, [] ++ (calls ++ []), hsettings.bind_ok (hbody.bind_ok ?_)⟩
    simp only [hlog]
    exact records_lift (.ok outcome)

/-- What predicates do that answer by their argument alone they always do, under settings
that ask for no log of failures. -/
theorem repeats_compositional (answers : Nat → Value → Except Fault Value)
    (hhost : ∀ mark v s, (host.predicate mark v s).1 = answers mark v)
    (hlog : settings.logFailures = false) :
    Compositional host (Repeats fun w => w.cached = some settings) where
  lift := repeats_sequential.lift
  bind := repeats_sequential.bind
  ask mark name v := by
    refine ⟨answers mark v, [⟨name, v⟩], fun w hw => ⟨(ask host mark name v w).2, hw, ?_, rfl⟩⟩
    rw [← hhost mark v w.predicates]
    rfl
  record name v := ⟨.ok (), [⟨name, v⟩], fun w hw =>
    ⟨{ w with calls := w.calls ++ [⟨name, v⟩] }, hw, rfl, rfl⟩⟩
  guarded name _ hbody := guarded_repeats hlog hbody name

/-- Predicates that answer by their argument alone repeat themselves. -/
theorem repeatable_of_answers (answers : Nat → Value → Except Fault Value)
    (hhost : ∀ mark v s, (host.predicate mark v s).1 = answers mark v)
    (hlog : settings.logFailures = false) (d v : Value) :
    Repeatable host (fun w => w.cached = some settings) d v :=
  fun _ v' _ p _ => (repeats_compositional answers hhost hlog).call p v'

/-- A caller whose predicates always agree repeats itself under the standard settings. -/
theorem agreeable_repeatable (d v : Value) :
    Repeatable agreeable (fun w => w.cached = some .standard) d v :=
  repeatable_of_answers (fun _ _ => .ok (.bool true)) (fun _ _ _ => rfl) rfl d v

end Check

end ShapeCheck
