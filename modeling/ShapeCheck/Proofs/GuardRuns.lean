import Mathlib.Data.List.Forall2
import ShapeCheck.Proofs.Reports

/-!
# Runs of guards

In a run guards are used and, in between, the environment is replaced, the kept settings are
forgotten and the log is configured.  A use that fails does not end the run: the next
operation finds the surroundings that it left behind.

`Journal` tells which checks of guards a run makes, with the settings that each read and how
the log was configured then.

Main statement: whatever is done in between, every use of a guard has the effect of a check of
its schema, and the failed checks that are in the log are those of the journal whose settings
ask for it, printed exactly while the log shows events of debugging (`guards_only_report`).
-/

namespace ShapeCheck

open Check Run

variable {σ : Type} {host : Host σ} {w w' u : World σ}

/-! ## Operations -/

/-- What is done with guards, and around them. -/
inductive Operation where
  | check (g : Guard) (v : Value)
  | isValid (g : Guard) (v : Value)
  /-- A guard is called as the predicate that it is. -/
  | call (g : Guard) (v : Value)
  | setEnvironment (environment : Environment) (keep : Bool)
  | forgetSettings
  | configureLog (given : Option Settings)

/-- What an operation answers. -/
inductive Answer where
  | outcome (outcome : Outcome)
  | truth (b : Bool)
  | done

namespace Operation

/-- Carries out an operation. -/
def run (host : Host σ) : Operation → Run σ Answer
  | check g v => do return .outcome (← g.check host v)
  | isValid g v => do return .truth (← g.isValid host v)
  | call g v => do return .truth (← ShapeCheck.call host g.toValue v).isTrue
  | setEnvironment environment keep => do
    Run.setEnvironment environment keep
    return .done
  | forgetSettings => do
    Run.setEnvironment (← get).environment false
    return .done
  | configureLog given => do
    Run.configureLog given
    return .done

/-- The guard that is used, and the value that it is used on. -/
def use? : Operation → Option (Guard × Value)
  | check g v | isValid g v | call g v => some (g, v)
  | _ => none

/-- What the use of a guard is to come down to: the check of its schema. -/
def reference? (host : Host σ) : Operation → Option (Run σ Answer)
  | check g v => some do return .outcome (← ShapeCheck.check host g.schema v)
  | isValid g v | call g v =>
    some do return .truth (← ShapeCheck.check host g.schema v).isNone
  | _ => none

/-- Tells whether an operation reads the settings in effect. -/
def readsSettings : Operation → Bool
  | check .. | isValid .. | call .. | configureLog none => true
  | setEnvironment .. | forgetSettings | configureLog (some _) => false

end Operation

/-- Carries out operations one after another. -/
def perform (host : Host σ) : List Operation → World σ → List (Except Fault Answer) × World σ
  | [], w => ([], w)
  | op :: ops, w =>
    let (answer, w₁) := (op.run host).startedIn w
    let (answers, w') := perform host ops w₁
    (answer :: answers, w')

/-- The settings load whenever they are read. -/
def Loading (host : Host σ) : List Operation → World σ → Prop
  | [], _ => True
  | op :: ops, w =>
    (op.readsSettings = true → Loads w) ∧ Loading host ops ((op.run host).startedIn w).2

variable {op : Operation} {ops before after : List Operation} {g : Guard} {v : Value}

theorem Loading.loads (h : Loading host (before ++ op :: after) w)
    (hop : op.readsSettings = true) : Loads (perform host before w).2 := by
  induction before generalizing w with
  | nil => exact h.1 hop
  | cons first before ih => exact ih h.2

/-- The use of a guard has the effect of a check of its schema. -/
theorem Operation.follows {reference : Run σ Answer} (h : op.reference? host = some reference) :
    Follows (op.run host) reference := by
  have hfollows (g : Guard) (v : Value) := guard_follows host g v
  cases op with
  | check g v =>
      obtain rfl := Option.some.inj h
      exact (hfollows g v).bind fun _ => follows_lift _
  | isValid g v =>
      obtain rfl := Option.some.inj h
      simp only [Operation.run, Guard.isValid, bind_assoc, pure_bind]
      exact (hfollows g v).bind fun _ => follows_lift _
  | call g v =>
      obtain rfl := Option.some.inj h
      simp only [Operation.run, call_of_guard (p := g.toValue) rfl, bind_assoc, pure_bind]
      exact (hfollows g v).bind fun _ => follows_lift _
  | _ => cases h

/-! ## Journals -/

/-- A use of a guard as a query of it. -/
def asked (host : Host σ) (g : Guard) (v : Value) (w : World σ) : Query σ :=
  ⟨g.toValue, v, w, ((call host g.toValue v).startedIn w).1,
    ((call host g.toValue v).startedIn w).2⟩

/-- The checks of guards that a run makes, in the order in which they end, with the
configuration of the log. -/
inductive Journal (host : Host σ) : List Operation → World σ → List (Episode × Log.Config) → Prop
  | nil {w : World σ} : Journal host [] w []
  | use {op : Operation} {ops : List Operation} {w : World σ} {g : Guard} {v : Value}
      {episodes : List Episode} {rest : List (Episode × Log.Config)}
      (hop : op.use? = some (g, v)) (hmade : Chronicle host [asked host g v w] episodes)
      (hrest : Journal host ops ((op.run host).startedIn w).2 rest) :
      Journal host (op :: ops) w (episodes.map (·, w.logging) ++ rest)
  | other {op : Operation} {ops : List Operation} {w : World σ}
      {rest : List (Episode × Log.Config)} (hop : op.use? = none)
      (hrest : Journal host ops ((op.run host).startedIn w).2 rest) :
      Journal host (op :: ops) w rest

variable {journal journal' : List (Episode × Log.Config)}

theorem exists_journal (host : Host σ) (ops : List Operation) (w : World σ) :
    ∃ journal, Journal host ops w journal := by
  induction ops generalizing w with
  | nil => exact ⟨[], .nil⟩
  | cons op ops ih =>
      obtain ⟨rest, hrest⟩ := ih ((op.run host).startedIn w).2
      cases hop : op.use? with
      | none => exact ⟨rest, .other hop hrest⟩
      | some use =>
          obtain ⟨episodes, hmade⟩ := exists_chronicle host [asked host use.1 use.2 w]
          exact ⟨_, .use hop hmade hrest⟩

theorem Journal.unique (h : Journal host ops w journal) (h' : Journal host ops w journal') :
    journal = journal' := by
  induction h generalizing journal' with
  | nil =>
      cases h'
      rfl
  | use hop hmade _ ih =>
      cases h' with
      | use hop' hmade' hrest' =>
          obtain ⟨rfl, rfl⟩ := Prod.mk.inj (Option.some.inj (hop.symm.trans hop'))
          rw [hmade.unique hmade', ih hrest']
      | other hop' => cases hop.symm.trans hop'
  | other hop _ ih =>
      cases h' with
      | use hop' => cases hop.symm.trans hop'
      | other _ hrest' => exact ih hrest'

/-- The reports that a journal asks for, with the configuration of the log. -/
def reports (journal : List (Episode × Log.Config)) : List (Log.Event × Log.Config) :=
  journal.filterMap fun made => made.1.event?.map (·, made.2)

theorem reports_append (journal more : List (Episode × Log.Config)) :
    reports (journal ++ more) = reports journal ++ reports more :=
  List.filterMap_append

theorem reports_cons (e : Episode) (config : Log.Config) (more : List (Episode × Log.Config)) :
    reports ((e, config) :: more) = (e.event?.map (·, config)).toList ++ reports more := by
  rw [reports, List.filterMap_cons]
  cases e.event? <;> rfl

/-! ## What is printed -/

namespace Log

/-- The capital letters of a level. -/
def Config.capitals (level : String) : String :=
  String.ofList (level.toList.map Config.capital).flatten

/-- The log shows events of debugging: nobody has configured it, or the level of the settings
is that of debugging or none at all, in any case. -/
def Config.Verbose (config : Config) : Prop :=
  config = .unconfigured ∨ ∃ s : Settings, config = .ofSettings s ∧
    (capitals s.logLevel = "DEBUG" ∨ capitals s.logLevel = "NOTSET")

/-- A configuration that a log can have. -/
def Config.Genuine (config : Config) : Prop :=
  config = .unconfigured ∨ ∃ s : Settings, config = .ofSettings s

theorem threshold_le_iff (s : Settings) :
    (Config.ofSettings s).threshold ≤ 10 ↔
      Config.capitals s.logLevel = "DEBUG" ∨ Config.capitals s.logLevel = "NOTSET" := by
  simp only [Config.ofSettings]
  rw [Config.thresholdOf, ← Config.capitals]
  generalize Config.capitals s.logLevel = word
  simp only [Bool.or_eq_true, decide_eq_true_eq]
  split_ifs with hcritical herror hwarning hdebug hnotset
  · rcases hcritical with rfl | rfl <;> decide
  · subst herror
    decide
  · rcases hwarning with rfl | rfl <;> decide
  · simp [hdebug]
  · simp [hnotset]
  · simp [hdebug, hnotset]

theorem Config.Genuine.verbose_iff {config : Config} (h : config.Genuine) :
    config.Verbose ↔ config.threshold ≤ 10 := by
  rcases h with rfl | ⟨s, rfl⟩
  · exact iff_of_true (.inl rfl) (Nat.zero_le 10)
  constructor
  · rintro (hunconfigured | ⟨s', hs', hlevel⟩)
    · rw [hunconfigured]
      exact Nat.zero_le 10
    · rw [hs']
      exact (threshold_le_iff s').mpr hlevel
  · exact fun hthreshold => .inr ⟨s, rfl, (threshold_le_iff s).mp hthreshold⟩

/-- A report is printed exactly while the log shows events of debugging. -/
theorem entry_printed_iff {config : Config} (hconfig : config.Genuine) (guard kind : String)
    (clock : Clock) :
    ((checkFailed guard kind).entry config clock).2.isSome = true ↔ config.Verbose := by
  obtain ⟨line, hline⟩ := exists_checkFailed_line guard kind config clock
  have hprints : config.prints (checkFailed guard kind) = true ↔ config.threshold ≤ 10 :=
    decide_eq_true_iff
  rw [hconfig.verbose_iff, ← hprints, Event.entry, hline]
  unfold Event.line? at hline
  split at hline
  next hshown =>
    generalize (if config.columns then _ else _) = written at hline
    cases written with
    | error fault => cases hline
    | ok text =>
        obtain rfl := Except.ok.inj hline
        exact iff_of_true rfl hshown
  next hdropped =>
    obtain rfl := Except.ok.inj hline
    exact iff_of_false Bool.false_ne_true hdropped

end Log

/-- An entry of the log is that of a report: it is the same event, and it has a line exactly
if the log showed events of debugging. -/
def Records (entry : Log.Event × Option String) (report : Log.Event × Log.Config) : Prop :=
  entry.1 = report.1 ∧ (entry.2.isSome = true ↔ report.2.Verbose)

/-- The entries of a log that are about failed checks. -/
def failures (entries : List (Log.Event × Option String)) : List (Log.Event × Option String) :=
  entries.filter fun entry => entry.1.name = "check_failed"

theorem Check.Episode.exists_checkFailed {e : Episode} {event : Log.Event}
    (h : e.event? = some event) : ∃ guard kind, event = Log.checkFailed guard kind := by
  unfold Episode.event? at h
  split at h
  next problem hanswer =>
    split at h
    · exact ⟨_, _, (Option.some.inj h).symm⟩
    · cases h
  next => cases h

/-- What checks leave in the log are the entries of their reports. -/
theorem records_entries {config : Log.Config} (hconfig : config.Genuine) (clock : Log.Clock)
    (episodes : List Episode) :
    List.Forall₂ Records (failures (entries config clock episodes))
      (reports (episodes.map (·, config))) := by
  induction episodes with
  | nil => exact .nil
  | cons e episodes ih =>
      rw [entries_cons, List.map_cons, reports_cons]
      cases hevent : e.event? with
      | none => exact ih
      | some event =>
          obtain ⟨guard, kind, rfl⟩ := Episode.exists_checkFailed hevent
          have hrecords : Records ((Log.checkFailed guard kind).entry config clock)
              (Log.checkFailed guard kind, config) :=
            ⟨rfl, Log.entry_printed_iff hconfig guard kind clock⟩
          exact .cons hrecords ih

/-! ## One operation -/

theorem linked_asked (host : Host σ) (g : Guard) (v : Value) (w : World σ) :
    ∃ failure, Linked host w [asked host g v w] failure
      ((call host g.toValue v).startedIn w).2 := by
  unfold asked
  rcases hcall : (call host g.toValue v).startedIn w with ⟨fault | answer, w'⟩
  · exact ⟨some fault, .failed hcall⟩
  · exact ⟨none, .answered hcall .nil⟩

namespace Operation

/-- The use of a guard leaves what a call of it does. -/
theorem use_world (hop : op.use? = some (g, v)) (w : World σ) :
    ((op.run host).startedIn w).2 = ((ShapeCheck.call host g.toValue v).startedIn w).2 := by
  have hcall : ((ShapeCheck.call host g.toValue v).startedIn w).2 =
      ((g.check host v).startedIn w).2 := by
    rw [call_of_guard (p := g.toValue) rfl, bind_pure_world]
    rfl
  cases op with
  | check =>
      obtain ⟨rfl, rfl⟩ := Prod.mk.inj (Option.some.inj hop)
      rw [run, bind_pure_world, hcall]
  | isValid =>
      obtain ⟨rfl, rfl⟩ := Prod.mk.inj (Option.some.inj hop)
      rw [run, bind_pure_world, Guard.isValid, bind_pure_world, hcall]
  | call =>
      obtain ⟨rfl, rfl⟩ := Prod.mk.inj (Option.some.inj hop)
      rw [run, bind_pure_world]
  | _ => cases hop

theorem readsSettings_of_use (hop : op.use? = some (g, v)) : op.readsSettings = true := by
  cases op <;> first | rfl | cases hop

theorem readsSettings_of_reference {reference : Run σ Answer}
    (hop : op.reference? host = some reference) : op.readsSettings = true := by
  cases op <;> first | rfl | cases hop

/-- The use of a guard hands the reports of the checks that it makes to the log. -/
theorem use_events {episodes : List Episode} (hop : op.use? = some (g, v)) (hw : Loads w)
    (hmade : Chronicle host [asked host g v w] episodes) :
    ((op.run host).startedIn w).2.events =
      w.events ++ entries w.logging w.clock episodes := by
  obtain ⟨failure, hlinked⟩ := linked_asked host g v w
  rw [use_world hop]
  exact hmade.events hlinked hw

theorem use_kept (host : Host σ) (hop : op.use? = some (g, v)) (w : World σ) :
    Kept w ((op.run host).startedIn w).2 := by
  rw [use_world hop]
  exact (keeps_compositional host).call g.toValue v w

end Operation

/-- From surroundings to later ones no check is reported to the log, and the log may have
been configured. -/
structure Silent (w w' : World σ) : Prop where
  logging : w.logging.Genuine → w'.logging.Genuine
  events : ∃ more, w'.events = w.events ++ more ∧ failures more = []

theorem silent_of_eq (hlogging : w'.logging = w.logging) (hevents : w'.events = w.events) :
    Silent w w' where
  logging h := hlogging ▸ h
  events := ⟨[], by rw [hevents, List.append_nil], rfl⟩

theorem silent_settings (w : World σ) : Silent w (settings.startedIn w).2 := by
  unfold startedIn settings
  repeat' split
  all_goals exact silent_of_eq rfl rfl

theorem Silent.trans (h : Silent w w') (h' : Silent w' u) : Silent w u where
  logging hw := h'.logging (h.logging hw)
  events := by
    obtain ⟨first, hfirst, hnone⟩ := h.events
    obtain ⟨more, hmore, hnone'⟩ := h'.events
    refine ⟨first ++ more, by rw [hmore, hfirst, List.append_assoc], ?_⟩
    rw [failures, List.filter_append]
    exact List.append_eq_nil_iff.mpr ⟨hnone, hnone'⟩

theorem silent_emit (event : Log.Event) (hname : event.name ≠ "check_failed") (w : World σ) :
    Silent w ((emit event).startedIn w).2 := by
  unfold startedIn emit
  split
  · exact silent_of_eq rfl rfl
  next line _ => exact ⟨id, [(event, line)], rfl, by simp [failures, hname]⟩

/-- That the log is configured is the first thing told to it in its new configuration. -/
theorem configureLog_startedIn (s : Settings) (w : World σ) :
    (Run.configureLog (some s)).startedIn w =
      (emit (Log.configured s)).startedIn { w with logging := .ofSettings s } := by
  have hrun : Run.configureLog (σ := σ) (some s) =
      (modify fun world : World σ => { world with logging := .ofSettings s }) >>= fun _ =>
        emit (Log.configured s) := by
    rw [Run.configureLog]
    exact pure_bind _ _
  rw [hrun, bind_startedIn]
  -- The line of the event is not to be computed here.
  generalize emit (Log.configured s) = told
  rfl

/-- What is handed to the log when it is configured is no report of a check. -/
theorem silent_configureLog (given : Option Settings) (w : World σ) :
    Silent w ((Run.configureLog given).startedIn w).2 := by
  have hconfigured (s : Settings) (w : World σ) :
      Silent w ((Run.configureLog (some s)).startedIn w).2 := by
    have hset : Silent w { w with logging := .ofSettings s } :=
      ⟨fun _ => .inr ⟨s, rfl⟩, [], (List.append_nil _).symm, rfl⟩
    have hname : "logging_configured" ≠ "check_failed" := by decide
    rw [configureLog_startedIn]
    exact hset.trans (silent_emit (Log.configured s) hname _)
  cases given with
  | some s => exact hconfigured s w
  | none =>
      have hread : Run.configureLog (σ := σ) none =
          settings >>= fun s => Run.configureLog (some s) := by
        simp only [Run.configureLog, pure_bind]
      have hsettings := silent_settings w
      rw [hread, bind_startedIn]
      rcases hrun : settings.startedIn w with ⟨fault | s, w₁⟩
      · rwa [hrun] at hsettings
      · rw [hrun] at hsettings
        exact hsettings.trans (hconfigured s w₁)

/-- An operation that is no use of a guard reports no check. -/
theorem Operation.other_silent (host : Host σ) (hop : op.use? = none) (w : World σ) :
    Silent w ((op.run host).startedIn w).2 := by
  cases op with
  | setEnvironment environment keep => exact silent_of_eq rfl rfl
  | forgetSettings => exact silent_of_eq rfl rfl
  | configureLog given =>
      rw [run, bind_pure_world]
      exact silent_configureLog given w
  | _ => cases hop

/-! ## A run -/

/-- The failed checks that a run leaves in the log are those that its journal asks for. -/
theorem Journal.events (h : Journal host ops w journal) (hloads : Loading host ops w)
    (hlogging : w.logging.Genuine) :
    ∃ new, (perform host ops w).2.events = w.events ++ new ∧
      List.Forall₂ Records (failures new) (reports journal) := by
  induction h with
  | nil => exact ⟨[], (List.append_nil _).symm, .nil⟩
  | @use op ops w g v episodes rest hop hmade _ ih =>
      have hw : Loads w := hloads.1 (Operation.readsSettings_of_use hop)
      have hkept := Operation.use_kept host hop w
      obtain ⟨new, hnew, hrecords⟩ := ih hloads.2 (hkept.logging ▸ hlogging)
      refine ⟨entries w.logging w.clock episodes ++ new, ?_, ?_⟩
      · rw [perform, hnew, Operation.use_events hop hw hmade, List.append_assoc]
      · rw [failures, List.filter_append, reports_append]
        exact List.rel_append (records_entries hlogging w.clock episodes) hrecords
  | @other op ops w rest hop _ ih =>
      obtain ⟨hgenuine, more, hmore, hnone⟩ := Operation.other_silent host hop w
      obtain ⟨new, hnew, hrecords⟩ := ih hloads.2 (hgenuine hlogging)
      refine ⟨more ++ new, ?_, ?_⟩
      · rw [perform, hnew, hmore, List.append_assoc]
      · rw [failures, List.filter_append]
        rw [failures] at hnone
        rwa [hnone]

/-- What guards add in a run are reports to the log, and nothing else. -/
structure OnlyReports (host : Host σ) (ops : List Operation) (w : World σ) : Prop where
  /-- Whatever was done before, the use of a guard has the effect that a check of its schema
  has, in any surroundings in which the predicates are in the same state. -/
  effect : ∀ before op after reference, ops = before ++ op :: after →
    op.reference? host = some reference →
    ∀ u, (perform host before w).2.predicates = u.predicates → Loads u →
      SameEffect (perform host before w).2 u ((op.run host).startedIn (perform host before w).2)
        (reference.startedIn u)
  /-- The failed checks that are handed to the log are those of the checks of guards that the
  run makes, in the order in which these end, as far as the settings ask for it.  They are
  printed exactly while the log shows events of debugging. -/
  reported : ∃ journal new, Journal host ops w journal ∧
    (∀ journal', Journal host ops w journal' → journal' = journal) ∧
    (perform host ops w).2.events = w.events ++ new ∧
    List.Forall₂ Records (failures new) (reports journal)

/-- Guards only report, provided that the settings load whenever they are read. -/
theorem guards_only_report (hloads : Loading host ops w) (hlogging : w.logging.Genuine) :
    OnlyReports host ops w where
  effect := by
    rintro before op after reference rfl hreference u hpredicates hu
    have hw : Loads (perform host before w).2 :=
      hloads.loads (Operation.readsSettings_of_reference hreference)
    exact (Operation.follows hreference hpredicates hw hu).1
  reported := by
    obtain ⟨journal, hjournal⟩ := exists_journal host ops w
    obtain ⟨new, hnew, hrecords⟩ := hjournal.events hloads hlogging
    exact ⟨journal, new, hjournal, fun journal' h => h.unique hjournal, hnew, hrecords⟩

/-- A guard of lists of words, which asks a guard of words for each. -/
def wordsGuard : Guard :=
  ⟨"words", Schema.arrayOf (Guard.toValue ⟨"word", Schema.ofFamily .string⟩)⟩

/-- A list that is no list of words is checked, and then once more while the log shows events
of debugging. -/
def wordsRun : List Operation :=
  [.check wordsGuard (.list [.null]), .configureLog (some ⟨"debug", false, true⟩),
    .isValid wordsGuard (.list [.null])]

/-- Surroundings in which failed checks are reported. -/
def watchful : World Unit := { calm with cached := some ⟨"info", false, true⟩ }

theorem guards_only_report_words :
    Loading agreeable wordsRun watchful ∧ watchful.logging.Genuine ∧
      OnlyReports agreeable wordsRun watchful := by
  have hwatchful : Loads watchful := ⟨_, .inl rfl⟩
  have hconfigured (s : Settings) (w : World Unit) (hw : Loads w) :
      Loads ((Operation.run agreeable (.configureLog (some s))).startedIn w).2 := by
    rw [Operation.run, bind_pure_world, configureLog_startedIn]
    exact (keeps_emit (Log.configured s) { w with logging := .ofSettings s }).loads hw
  have hloads : Loading agreeable wordsRun watchful := by
    have hchecked : Loads ((Operation.run agreeable
        (.check wordsGuard (.list [.null]))).startedIn watchful).2 :=
      (Operation.use_kept agreeable rfl watchful).loads hwatchful
    exact ⟨fun _ => hwatchful, nofun, fun _ => hconfigured _ _ hchecked, trivial⟩
  exact ⟨hloads, .inl rfl, guards_only_report hloads (.inl rfl)⟩

end ShapeCheck
