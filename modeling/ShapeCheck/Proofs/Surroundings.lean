import ShapeCheck.Guard
import ShapeCheck.Proofs.Guards
import ShapeCheck.Proofs.Queries

/-!
# A check in its surroundings

Of its surroundings a check leaves alone the environment, the clock and how the log is
configured, and the settings in effect stay in effect.  While the settings load, what it
answers and which predicates it calls depend on nothing but the state of the predicates.  A
guard adds one thing to the check of its schema: it reports a mismatch to the log, if the
settings ask for it.

Main statement: the check of a guard has the effect of the check of its schema
(`guard_follows`).
-/

namespace ShapeCheck

/-- An event as the log keeps it, with the line that it is printed as. -/
def Log.Event.entry (event : Log.Event) (config : Log.Config) (clock : Log.Clock) :
    Log.Event × Option String :=
  (event, ((event.line? config clock).toOption).join)

namespace Check

open Run

variable {σ α β : Type} {host : Host σ} {w w' w₁ w₂ u : World σ} {s s' : Settings}

/-! ## Settings in effect -/

/-- The settings that are read in given surroundings. -/
def InEffect (w : World σ) (s : Settings) : Prop :=
  w.cached = some s ∨ w.cached = none ∧ Settings.load [] w.environment = .ok s

theorem InEffect.unique (h : InEffect w s) (h' : InEffect w s') : s = s' := by
  rcases h with h | ⟨h, hload⟩ <;> rcases h' with h' | ⟨h', hload'⟩
  · exact Option.some.inj (h.symm.trans h')
  · cases h.symm.trans h'
  · cases h.symm.trans h'
  · exact Except.ok.inj (hload.symm.trans hload')

theorem settings_startedIn (h : InEffect w s) :
    settings.startedIn w = (.ok s, { w with cached := some s }) := by
  rcases h with h | ⟨h, hload⟩
  · have hw : { w with cached := some s } = w := by rw [← h]
    rw [hw]
    simp [startedIn, settings, h]
  · simp [startedIn, settings, h, hload]

theorem settings_startedIn_eq_ok_iff :
    settings.startedIn w = (.ok s, w') ↔ InEffect w s ∧ w' = { w with cached := some s } := by
  constructor
  · intro h
    have hs : InEffect w s := by
      unfold startedIn settings at h
      split at h
      next cached hcached =>
        obtain ⟨hs, -⟩ := Prod.mk.inj h
        exact .inl (Except.ok.inj hs ▸ hcached)
      next hcached =>
        split at h
        next => cases congrArg Prod.fst h
        next loaded hload =>
          obtain ⟨hs, -⟩ := Prod.mk.inj h
          exact .inr ⟨hcached, Except.ok.inj hs ▸ hload⟩
    exact ⟨hs, (congrArg Prod.snd (h.symm.trans (settings_startedIn hs)))⟩
  · rintro ⟨hs, rfl⟩
    exact settings_startedIn hs

/-! ## What is left alone -/

/-- What a check leaves alone in its surroundings. -/
structure Kept (w w' : World σ) : Prop where
  environment : w'.environment = w.environment
  logging : w'.logging = w.logging
  clock : w'.clock = w.clock
  settings {s : Settings} (h : InEffect w s) : InEffect w' s

theorem Kept.trans (h : Kept w w₁) (h' : Kept w₁ w') : Kept w w' where
  environment := h'.environment.trans h.environment
  logging := h'.logging.trans h.logging
  clock := h'.clock.trans h.clock
  settings hs := h'.settings (h.settings hs)

theorem Kept.loads (h : Kept w w') (hw : Loads w) : Loads w' :=
  hw.imp fun _ => h.settings

theorem kept_of_eq (henvironment : w'.environment = w.environment)
    (hlogging : w'.logging = w.logging) (hclock : w'.clock = w.clock)
    (hcached : w'.cached = w.cached) : Kept w w' where
  environment := henvironment
  logging := hlogging
  clock := hclock
  settings hs := by rwa [InEffect, hcached, henvironment]

/-- A run keeps what a check leaves alone. -/
def Keeps (run : Run σ α) : Prop := ∀ w, Kept w (run.startedIn w).2

theorem Kept.refl (w : World σ) : Kept w w := kept_of_eq rfl rfl rfl rfl

theorem keeps_settings : Keeps (σ := σ) settings := by
  intro w
  unfold startedIn settings
  split
  · exact .refl w
  next hcached =>
    split
    · exact .refl w
    next loaded hload =>
      refine ⟨rfl, rfl, rfl, ?_⟩
      intro s hs
      exact .inl (congrArg some (InEffect.unique (.inr ⟨hcached, hload⟩) hs))

theorem keeps_emit (event : Log.Event) : Keeps (σ := σ) (emit event) := by
  intro w
  unfold startedIn emit
  split
  · exact .refl w
  · exact kept_of_eq rfl rfl rfl rfl

theorem Keeps.bind {run : Run σ α} {next : α → Run σ β} (h : Keeps run)
    (hnext : ∀ a, Keeps (next a)) : Keeps (run >>= next) := by
  intro w
  have hrun := h w
  rw [bind_startedIn]
  rcases heq : run.startedIn w with ⟨fault | a, w₁⟩
  · rwa [heq] at hrun
  · rw [heq] at hrun
    exact hrun.trans (hnext a w₁)

theorem keeps_compositional (host : Host σ) : Compositional host Keeps :=
  compositional_of_steps (fun _ w => .refl w) (fun _ _ _ _ => kept_of_eq rfl rfl rfl rfl)
    (fun _ _ _ => kept_of_eq rfl rfl rfl rfl) keeps_settings keeps_emit Keeps.bind

/-! ## What a guard adds -/

/-- A check of a guard that was made, with the settings that it read. -/
structure Episode where
  guard : String
  settings : Settings
  answer : Except Fault Outcome

/-- The report of a check: there is one for a mismatch, if the settings ask for it. -/
def Episode.event? (e : Episode) : Option Log.Event :=
  match e.answer with
  | .ok (some problem) =>
    if e.settings.logFailures then some (Log.checkFailed e.guard problem.kind) else none
  | _ => none

/-- The surroundings after a check was reported to the log. -/
def Episode.reported (e : Episode) (w : World σ) : World σ :=
  { w with events := w.events ++ (e.event?.map (·.entry w.logging w.clock)).toList }

theorem emit_checkFailed (name kind : String) (w : World σ) :
    (emit (Log.checkFailed name kind)).startedIn w =
      (.ok (), { w with events :=
        w.events ++ [(Log.checkFailed name kind).entry w.logging w.clock] }) := by
  obtain ⟨line, hline⟩ := Log.exists_checkFailed_line name kind w.logging w.clock
  simp only [startedIn, emit, Log.Event.entry, hline]
  rfl

/-- A check under a name is the check itself, once the settings are read, and then a report. -/
theorem guarded_startedIn (hs : InEffect w s) {body : Run σ Outcome} {answer : Except Fault Outcome}
    (hbody : body.startedIn { w with cached := some s } = (answer, w₂)) (name : String) :
    (guarded name body).startedIn w = (answer, (Episode.mk name s answer).reported w₂) := by
  rw [guarded, bind_startedIn, settings_startedIn hs]
  dsimp only
  rw [bind_startedIn, hbody]
  rcases answer with fault | outcome
  · simp [Episode.reported, Episode.event?]
  · dsimp only
    cases hlog : s.logFailures with
    | false =>
        cases outcome <;> simp [Episode.reported, Episode.event?, hlog]
    | true =>
        cases outcome with
        | none => simp [Episode.reported, Episode.event?]
        | some problem =>
            rw [if_pos rfl, bind_startedIn, emit_checkFailed]
            simp [Episode.reported, Episode.event?, hlog]

/-! ## What is depended on -/

/-- Two runs end with the same answer, leave the predicates in the same state and called the
same ones in the same order. -/
structure SameEffect (w u : World σ) (r r' : Except Fault α × World σ) : Prop where
  answer : r.1 = r'.1
  predicates : r.2.predicates = r'.2.predicates
  calls : ∃ calls, r.2.calls = w.calls ++ calls ∧ r'.2.calls = u.calls ++ calls

/-- Two runs have the same effect wherever the predicates are in the same state and the
settings load, and these go on loading. -/
def Follows (run run' : Run σ α) : Prop :=
  ∀ ⦃w u⦄, w.predicates = u.predicates → Loads w → Loads u →
    SameEffect w u (run.startedIn w) (run'.startedIn u) ∧
      Loads (run.startedIn w).2 ∧ Loads (run'.startedIn u).2

theorem Follows.symm {run run' : Run σ α} (h : Follows run run') : Follows run' run := by
  intro w u hpredicates hw hu
  obtain ⟨heffect, hw', hu'⟩ := h hpredicates.symm hu hw
  exact ⟨⟨heffect.answer.symm, heffect.predicates.symm, heffect.calls.imp fun _ => And.symm⟩,
    hu', hw'⟩

theorem follows_lift (answer : Except Fault α) : Follows (σ := σ) (lift answer) (lift answer) :=
  fun _ _ hpredicates hw hu => ⟨⟨rfl, hpredicates, [], by simp⟩, hw, hu⟩

theorem follows_ask (mark : Nat) (name : Option String) (v : Value) :
    Follows (ask host mark name v) (ask host mark name v) := by
  intro w u hpredicates hw hu
  refine ⟨⟨?_, ?_, [⟨name, v⟩], rfl, rfl⟩, hw, hu⟩
  · simp only [startedIn, ask, hpredicates]
  · simp only [startedIn, ask, hpredicates]

theorem Follows.bind {run run' : Run σ α} {next next' : α → Run σ β} (h : Follows run run')
    (hnext : ∀ a, Follows (next a) (next' a)) : Follows (run >>= next) (run' >>= next') := by
  intro w u hpredicates hw hu
  obtain ⟨⟨hanswer, hpredicates₁, calls, hcalls, hcalls'⟩, hw₁, hu₁⟩ := h hpredicates hw hu
  rw [bind_startedIn, bind_startedIn]
  rcases hrun : run.startedIn w with ⟨answer, w₁⟩
  rcases hrun' : run'.startedIn u with ⟨answer', u₁⟩
  simp only [hrun, hrun'] at hanswer hpredicates₁ hcalls hcalls' hw₁ hu₁
  subst hanswer
  rcases answer with fault | a
  · exact ⟨⟨rfl, hpredicates₁, calls, hcalls, hcalls'⟩, hw₁, hu₁⟩
  · obtain ⟨⟨hanswer, hpredicates₂, more, hmore, hmore'⟩, hw₂, hu₂⟩ := hnext a hpredicates₁ hw₁ hu₁
    refine ⟨⟨hanswer, hpredicates₂, calls ++ more, ?_, ?_⟩, hw₂, hu₂⟩
    · rw [hmore, hcalls, List.append_assoc]
    · rw [hmore', hcalls', List.append_assoc]

/-- Where one of two runs is a check under a name, the effect stays the same. -/
theorem Follows.guarded {body body' : Run σ Outcome} (h : Follows body body') (name : String) :
    Follows (Run.guarded name body) body' := by
  rintro w u hpredicates ⟨s, hs⟩ hu
  rcases hbody : body.startedIn { w with cached := some s } with ⟨answer, w₂⟩
  have hbodies := @h { w with cached := some s } u hpredicates ⟨s, .inl rfl⟩ hu
  rw [hbody] at hbodies
  obtain ⟨⟨hanswer, hpredicates₂, hcalls⟩, hw₂, hu₂⟩ := hbodies
  rw [guarded_startedIn hs hbody]
  exact ⟨⟨hanswer, hpredicates₂, hcalls⟩, hw₂, hu₂⟩

/-- What a check does to the predicates depends on nothing else in its surroundings. -/
theorem follows_compositional (host : Host σ) :
    Compositional host fun run => Follows run run where
  lift := follows_lift
  ask := follows_ask
  record name v _ _ hpredicates hw hu := ⟨⟨rfl, hpredicates, [⟨name, v⟩], rfl, rfl⟩, hw, hu⟩
  bind hrun hnext := hrun.bind hnext
  guarded name _ hbody := ((hbody.symm.guarded name).symm).guarded name

/-- A guard has the effect of its schema. -/
theorem guard_follows (host : Host σ) (g : Guard) (v : Value) :
    Follows (g.check host v) (ShapeCheck.check host g.schema v) :=
  ((follows_compositional host).check g.schema v).guarded g.name

end Check

end ShapeCheck
