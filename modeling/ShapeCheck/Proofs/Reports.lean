import ShapeCheck.Proofs.Surroundings

/-!
# The reports of guards

A check that comes to guards makes their checks on the way, and these may come to further
guards.  `Chronicle` tells which checks of guards are made while the queries of a log are
answered, with the settings that each read and the answer that it ended in, in the order in
which they end.  So a check that is made within another one comes before it.

Main statement: all that is handed to the log while queries are answered are the reports of
the checks of guards, in this order (`Chronicle.events`).
-/

namespace ShapeCheck.Check

open Run

variable {σ : Type} {host : Host σ} {d v p : Value} {w w' w₁ : World σ} {task : Task}
  {log : List (Query σ)} {answer : Except Fault Outcome} {failure : Option Fault} {q : Query σ}
  {episodes episodes' : List Episode} {n : Nat}

/-- The checks of guards that are made while the queries of a log are answered. -/
inductive Chronicle (host : Host σ) : List (Query σ) → List Episode → Prop
  | nil : Chronicle host [] []
  /-- Nothing is checked in order to answer the query. -/
  | other {q : Query σ} {log : List (Query σ)} {rest : List Episode}
      (hq : ∀ schema w, ¬ Inner host q schema w) (hrest : Chronicle host log rest) :
      Chronicle host (q :: log) rest
  /-- The predicate was made from a schema. -/
  | function {q : Query σ} {mark : Nat} {name : Option String} {attrs : List (String × Value)}
      {schema : Value} {w' : World σ} {log inner : List (Query σ)}
      {answer : Except Fault Outcome} {within rest : List Episode}
      (hcallee : callee q.predicate = .function mark name attrs (some schema))
      (htraced : Traced host (.check schema q.argument)
        { q.before with calls := q.before.calls ++ [⟨name, q.argument⟩] } inner answer w')
      (hwithin : Chronicle host inner within) (hrest : Chronicle host log rest) :
      Chronicle host (q :: log) (within ++ rest)
  /-- The predicate is a guard. -/
  | guard {q : Query σ} {mark : Nat} {name : String} {schema : Value} {settings : Settings}
      {w₁ w' : World σ} {log inner : List (Query σ)} {answer : Except Fault Outcome}
      {within rest : List Episode} (hcallee : callee q.predicate = .guard mark name schema)
      (hsettings : Run.settings.startedIn q.before = (.ok settings, w₁))
      (htraced : Traced host (.check schema q.argument) w₁ inner answer w')
      (hwithin : Chronicle host inner within) (hrest : Chronicle host log rest) :
      Chronicle host (q :: log) (within ++ ⟨name, settings, answer⟩ :: rest)

/-- A log has at most one chronicle. -/
theorem Chronicle.unique (h : Chronicle host log episodes) (h' : Chronicle host log episodes') :
    episodes = episodes' := by
  induction h generalizing episodes' with
  | nil =>
      cases h'
      rfl
  | other hq _ ih =>
      cases h' with
      | other _ hrest' => exact ih hrest'
      | function hcallee => exact absurd (.function hcallee) (hq _ _)
      | guard hcallee hsettings => exact absurd (.guard hcallee hsettings) (hq _ _)
  | function hcallee htraced _ _ ihwithin ihrest =>
      cases h' with
      | other hq => exact absurd (.function hcallee) (hq _ _)
      | function hcallee' htraced' hwithin' hrest' =>
          cases hcallee.symm.trans hcallee'
          obtain rfl := htraced.log_unique htraced'
          rw [ihwithin hwithin', ihrest hrest']
      | guard hcallee' => cases hcallee.symm.trans hcallee'
  | guard hcallee hsettings htraced _ _ ihwithin ihrest =>
      cases h' with
      | other hq => exact absurd (.guard hcallee hsettings) (hq _ _)
      | function hcallee' => cases hcallee.symm.trans hcallee'
      | guard hcallee' hsettings' htraced' hwithin' hrest' =>
          cases hcallee.symm.trans hcallee'
          obtain ⟨hread, rfl⟩ := Prod.mk.inj (hsettings.symm.trans hsettings')
          obtain rfl := Except.ok.inj hread
          obtain rfl := htraced.log_unique htraced'
          obtain ⟨rfl, -⟩ := htraced.end_unique htraced'
          rw [ihwithin hwithin', ihrest hrest']

/-! ## Every log has a chronicle -/

/-- The schemas and predicates of a task go down at most a number of steps. -/
def Task.DownTo (n : Nat) : Task → Prop
  | .check d _ => d.descent ≤ n
  | .ask p _ => p.descent ≤ n
  | .inTurn items => ∀ schema v tell, .part schema v tell ∈ items → schema.descent ≤ n
  | .oneOf _ _ schemas => ∀ schema ∈ schemas, schema.descent ≤ n

theorem downTo_plan (hd : d.descent ≤ n) : (plan d v).DownTo n := by
  have hparts (schema x : Value) (h : (plan d v).Comes schema x) : schema.descent ≤ n :=
    Nat.le_trans (Nat.le_of_lt (plan_comes h).descent_lt) hd
  cases hplan : plan d v with
  | check schema x => exact hparts schema x (hplan ▸ ⟨rfl, rfl⟩)
  | ask p x => exact Nat.le_trans (plan_asks hplan).1.descent_le hd
  | inTurn items =>
      intro schema x tell hmem
      exact hparts schema x (hplan ▸ ⟨tell, hmem⟩)
  | oneOf x rejected schemas =>
      intro schema hmem
      exact hparts schema x (hplan ▸ ⟨rfl, hmem⟩)

/-- A task only asks predicates that go down as far as it does. -/
theorem Traced.descent_le (h : Traced host task w log answer w') (htask : task.DownTo n)
    (hq : q ∈ log) : q.predicate.descent ≤ n := by
  induction h with
  | check _ ih => exact ih (downTo_plan htask) hq
  | ask =>
      obtain rfl := List.mem_singleton.mp hq
      exact htask
  | done | decided | exhausted => cases hq
  | allowed _ ih =>
      exact ih (fun schema v tell hmem => htask schema v tell (List.mem_cons_of_mem _ hmem)) hq
  | stopped _ _ ih => exact ih (htask _ _ _ List.mem_cons_self) hq
  | passed _ _ ihpart ihrest =>
      rcases List.mem_append.mp hq with hq | hq
      · exact ihpart (htask _ _ _ List.mem_cons_self) hq
      · refine ihrest (fun schema v tell hmem => ?_) hq
        exact htask schema v tell (List.mem_cons_of_mem _ hmem)
  | found _ _ ih => exact ih (htask _ List.mem_cons_self) hq
  | rejected _ _ ihpart ihrest =>
      rcases List.mem_append.mp hq with hq | hq
      · exact ihpart (htask _ List.mem_cons_self) hq
      · exact ihrest (fun schema hmem => htask schema (List.mem_cons_of_mem _ hmem)) hq

theorem exists_chronicle_of_le (hlog : ∀ q ∈ log, q.predicate.descent ≤ n) :
    ∃ episodes, Chronicle host log episodes := by
  induction n using Nat.strongRecOn generalizing log with
  | _ n ih =>
      have hinner (schema x : Value) (hschema : schema.descent < n) (w : World σ) :
          ∃ inner answer w' within, Traced host (.check schema x) w inner answer w' ∧
            Chronicle host inner within := by
        obtain ⟨inner, answer, w', htraced⟩ := traceable_check host schema x w
        obtain ⟨within, hwithin⟩ := ih schema.descent hschema
          fun q hq => htraced.descent_le (Nat.le_refl _) hq
        exact ⟨inner, answer, w', within, htraced, hwithin⟩
      induction log with
      | nil => exact ⟨[], .nil⟩
      | cons q log ihlog =>
          rw [List.forall_mem_cons] at hlog
          obtain ⟨rest, hrest⟩ := ihlog hlog.2
          have hdescent := descent_callee q.predicate
          by_cases hq : ∃ schema w, Inner host q schema w
          · obtain ⟨schema, w₁, hq⟩ := hq
            cases hq with
            | function hcallee =>
                rw [hcallee, Value.descent_function] at hdescent
                obtain ⟨inner, answer, w', within, htraced, hwithin⟩ :=
                  hinner schema q.argument (by omega) _
                exact ⟨_, .function hcallee htraced hwithin hrest⟩
            | guard hcallee hsettings =>
                rw [hcallee, Value.descent_guard] at hdescent
                obtain ⟨inner, answer, w', within, htraced, hwithin⟩ :=
                  hinner schema q.argument (by omega) w₁
                exact ⟨_, .guard hcallee hsettings htraced hwithin hrest⟩
          · exact ⟨rest, .other (fun schema w h => hq ⟨schema, w, h⟩) hrest⟩

theorem exists_chronicle (host : Host σ) (log : List (Query σ)) :
    ∃ episodes, Chronicle host log episodes := by
  suffices hbound : ∃ n, ∀ q ∈ log, q.predicate.descent ≤ n from
    hbound.elim fun n hn => exists_chronicle_of_le hn
  induction log with
  | nil => exact ⟨0, by simp⟩
  | cons q log ih =>
      obtain ⟨n, hn⟩ := ih
      refine ⟨max q.predicate.descent n, List.forall_mem_cons.mpr ⟨Nat.le_max_left .., ?_⟩⟩
      exact fun q hq => Nat.le_trans (hn q hq) (Nat.le_max_right ..)

/-! ## The events of a chronicle -/

/-- What is left in the log by checks of guards. -/
def entries (config : Log.Config) (clock : Log.Clock) (episodes : List Episode) :
    List (Log.Event × Option String) :=
  episodes.filterMap fun e => e.event?.map (·.entry config clock)

theorem entries_append (config : Log.Config) (clock : Log.Clock) (episodes more : List Episode) :
    entries config clock (episodes ++ more) =
      entries config clock episodes ++ entries config clock more :=
  List.filterMap_append

theorem entries_cons (config : Log.Config) (clock : Log.Clock) (e : Episode)
    (more : List Episode) :
    entries config clock (e :: more) =
      (e.event?.map (·.entry config clock)).toList ++ entries config clock more := by
  rw [entries, List.filterMap_cons]
  cases e.event? <;> rfl

theorem call_of_function {mark : Nat} {name : Option String} {attrs : List (String × Value)}
    {schema : Value} (hcallee : callee p = .function mark name attrs (some schema)) :
    call host p v = record name v >>= fun _ =>
      check host schema v >>= fun outcome => pure (.bool outcome.isNone) := by
  simp only [call, invoke, hcallee]

theorem call_of_guard {mark : Nat} {name : String} {schema : Value}
    (hcallee : callee p = .guard mark name schema) :
    call host p v =
      guarded name (check host schema v) >>= fun outcome => pure (.bool outcome.isNone) := by
  simp only [call, invoke, hcallee]

/-- Giving an answer another form changes nothing in the surroundings. -/
theorem bind_pure_world {α β : Type} (run : Run σ α) (f : α → β) (w : World σ) :
    ((run >>= fun a => pure (f a)).startedIn w).2 = (run.startedIn w).2 := by
  rw [bind_startedIn]
  rcases run.startedIn w with ⟨fault | a, w₁⟩ <;> rfl

/-- A query for which nothing is checked leaves the log alone. -/
theorem events_of_other (hq : ∀ schema w, ¬ Inner host q schema w) (hw : Loads q.before) :
    ((call host q.predicate q.argument).startedIn q.before).2.events = q.before.events := by
  unfold call invoke
  cases hcallee : callee q.predicate with
  | function mark name attrs schema =>
      cases schema with
      | none => rfl
      | some schema => exact absurd (.function hcallee) (hq _ _)
  | guard mark name schema =>
      obtain ⟨settings, hsettings⟩ := hw
      exact absurd (.guard hcallee (settings_startedIn hsettings)) (hq _ _)
  | tagged mark tag form => cases form <;> rfl
  | _ => rfl

/-- The first query of a log is a call, and the others go on from it. -/
theorem Linked.of_cons (h : Linked host w (q :: log) failure w') :
    q.before = w ∧ ∃ failure, Linked host
      ((call host q.predicate q.argument).startedIn w).2 log failure w' := by
  cases h with
  | answered hcall hrest =>
      rw [hcall]
      exact ⟨rfl, _, hrest⟩
  | failed hcall =>
      rw [hcall]
      exact ⟨rfl, none, .nil⟩

/-- What is handed to the log while queries are answered are the reports of the checks of
guards that are made, and nothing else. -/
theorem Chronicle.events (h : Chronicle host log episodes) (hlinked : Linked host w log failure w')
    (hw : Loads w) : w'.events = w.events ++ entries w.logging w.clock episodes := by
  induction h generalizing w failure w' with
  | nil =>
      cases hlinked
      exact (List.append_nil _).symm
  | @other q log rest hq _ ih =>
      obtain ⟨rfl, failure, hrest⟩ := hlinked.of_cons
      have hkept := (keeps_compositional host).call q.predicate q.argument q.before
      rw [ih hrest (hkept.loads hw), events_of_other hq hw, hkept.logging, hkept.clock]
  | @function q mark name attrs schema w₂ log inner answer within rest hcallee htraced _ _
      ihwithin ihrest =>
      obtain ⟨rfl, failure, hrest⟩ := hlinked.of_cons
      have hkept := (keeps_compositional host).call q.predicate q.argument q.before
      obtain ⟨_, hinner, -⟩ := htraced.linked
      have hrun : (check host schema q.argument).startedIn
          { q.before with calls := q.before.calls ++ [⟨name, q.argument⟩] } = (answer, w₂) :=
        htraced.run_eq
      have hcall : ((call host q.predicate q.argument).startedIn q.before).2 = w₂ := by
        rw [call_of_function hcallee]
        exact (bind_pure_world (check host schema q.argument) _ _).trans (congrArg Prod.snd hrun)
      rw [ihrest hrest (hkept.loads hw), hkept.logging, hkept.clock, hcall, ihwithin hinner hw,
        entries_append, List.append_assoc]
  | @guard q mark name schema settings w₁ w₂ log inner answer within rest hcallee hsettings
      htraced _ _ ihwithin ihrest =>
      obtain ⟨rfl, failure, hrest⟩ := hlinked.of_cons
      have hkept := (keeps_compositional host).call q.predicate q.argument q.before
      obtain ⟨_, hinner, -⟩ := htraced.linked
      obtain ⟨hs, rfl⟩ := settings_startedIn_eq_ok_iff.mp hsettings
      have hbody : (check host schema q.argument).startedIn
          { q.before with cached := some settings } = (answer, w₂) := htraced.run_eq
      have hkept₂ := (keeps_compositional host).check schema q.argument
        { q.before with cached := some settings }
      rw [hbody] at hkept₂
      have hcall : ((call host q.predicate q.argument).startedIn q.before).2 =
          (Episode.mk name settings answer).reported w₂ := by
        rw [call_of_guard hcallee, bind_pure_world, guarded_startedIn hs hbody]
      rw [ihrest hrest (hkept.loads hw), hkept.logging, hkept.clock, hcall, Episode.reported,
        ihwithin hinner ⟨settings, .inl rfl⟩, entries_append, entries_cons, hkept₂.logging,
        hkept₂.clock]
      simp only [List.append_assoc]

end ShapeCheck.Check
