import ShapeCheck.Proofs.Parallel

/-!
# Guards agree with their schemas

As a predicate a guard reads the settings, checks its schema, may report a mismatch to the
log, and answers by a truth value.  Once the settings load none of this can go wrong by
itself: the fields of the report are texts, so the report always has a line.  Hence a
guard accepts and rejects what its schema does, and fails where that does.
-/

namespace ShapeCheck

namespace Log

/-- Fields that hold a text, or the duration that the clock measured. -/
inductive Field.Textual : Field → Prop
  | text (s : String) : Textual (.value (.text s))
  | elapsed : Textual .elapsed

theorem Field.Textual.json {field : Field} (h : field.Textual) (clock : Clock) :
    ∃ s, field.json clock = .ok s := by
  cases h <;> exact ⟨_, rfl⟩

theorem Field.Textual.column {field : Field} (h : field.Textual) (clock : Clock) :
    ∃ s, field.column clock = .ok s := by
  cases h with
  | elapsed => exact ⟨_, rfl⟩
  | text s =>
      by_cases hquotes : needsQuotes s = true
      · exact ⟨Text.quoted s, if_pos hquotes⟩
      · exact ⟨s, if_neg hquotes⟩

theorem exists_mapM_ok {α β : Type} {f : α → Except Fault β} {items : List α}
    (h : ∀ item ∈ items, ∃ b, f item = .ok b) : ∃ bs, items.mapM f = .ok bs := by
  induction items with
  | nil => exact ⟨[], rfl⟩
  | cons head tail ih =>
      rw [List.mapM_cons]
      apply exists_bind_ok (h head List.mem_cons_self)
      intro b
      apply exists_bind_ok (ih fun item hitem => h item (List.mem_cons_of_mem _ hitem))
      intro bs
      exact ⟨b :: bs, rfl⟩

theorem textual_setField {fields : List (String × Field)} {name : String} {field : Field}
    (hfields : ∀ f ∈ fields, f.2.Textual) (hfield : field.Textual) :
    ∀ f ∈ setField fields name field, f.2.Textual := by
  induction fields with
  | nil => simpa [setField] using hfield
  | cons head tail ih =>
      have htail := ih fun f hf => hfields f (List.mem_cons_of_mem _ hf)
      rw [setField]
      split
      · exact List.forall_mem_cons.mpr ⟨hfield, fun f hf => hfields f (List.mem_cons_of_mem _ hf)⟩
      · exact List.forall_mem_cons.mpr ⟨hfields head List.mem_cons_self, htail⟩

/-- An event whose fields are texts has a line under every configuration. -/
theorem Event.exists_line {event : Event} (h : ∀ f ∈ event.fields, f.2.Textual)
    (config : Config) (clock : Clock) : ∃ line, event.line? config clock = .ok line := by
  have hall : ∀ f ∈ event.allFields clock, f.2.Textual :=
    textual_setField (textual_setField (textual_setField h (.text _)) (.text _)) (.text _)
  have hcolumns : ∃ line, event.columns clock = .ok line := by
    apply exists_bind_ok
    · apply exists_mapM_ok
      intro f hf
      have hmem := (List.mem_filter.mp (List.mem_mergeSort.mp hf)).1
      exact exists_bind_ok ((hall f hmem).column clock) fun s => ⟨_, rfl⟩
    · exact fun texts => ⟨_, rfl⟩
  have hjson : ∃ line, event.json clock = .ok line := by
    apply exists_bind_ok
    · apply exists_mapM_ok
      intro f hf
      exact exists_bind_ok ((hall f hf).json clock) fun s => ⟨_, rfl⟩
    · exact fun texts => ⟨_, rfl⟩
  have hwritten : ∃ line, (if config.columns then event.columns clock else event.json clock) =
      .ok line := by
    split
    · exact hcolumns
    · exact hjson
  obtain ⟨line, hline⟩ := hwritten
  by_cases hprints : config.prints event = true
  · exact ⟨some line, by rw [line?, if_pos hprints, hline]; rfl⟩
  · exact ⟨none, if_neg hprints⟩

theorem exists_checkFailed_line (guard kind : String) (config : Config) (clock : Clock) :
    ∃ line, (checkFailed guard kind).line? config clock = .ok line := by
  apply Event.exists_line
  simp only [checkFailed, List.forall_mem_cons]
  exact ⟨.text _, .text _, .elapsed, by simp⟩

end Log

namespace Check

open Run

variable {σ : Type} {host : Host σ} {d v : Value}

/-- Surroundings in which the settings load, or have been loaded already. -/
def Loads (w : World σ) : Prop :=
  ∃ settings, w.cached = some settings ∨
    w.cached = none ∧ Settings.load [] w.environment = .ok settings

theorem Loads.settings {w : World σ} (hw : Loads w) :
    ∃ settings w', Loads w' ∧ Run.settings.startedIn w = (.ok settings, w') := by
  obtain ⟨settings, hcached | ⟨hcached, hload⟩⟩ := hw
  · exact ⟨settings, w, ⟨settings, .inl hcached⟩, by simp [startedIn, Run.settings, hcached]⟩
  · exact ⟨settings, { w with cached := some settings }, ⟨settings, .inl rfl⟩,
      by simp [startedIn, Run.settings, hcached, hload]⟩

theorem settles_emit_checkFailed (name kind : String) :
    Settles (σ := σ) Loads (emit (Log.checkFailed name kind)) (.ok ()) := by
  intro w hw
  obtain ⟨line, hline⟩ := Log.exists_checkFailed_line name kind w.logging w.clock
  refine ⟨{ w with events := w.events ++ [(Log.checkFailed name kind, line)] }, hw, ?_⟩
  simp [startedIn, emit, hline]

/-- A check under a name answers what the check itself does, whatever the settings ask. -/
theorem guarded_settles {body : Run σ Outcome} {answer : Except Fault Outcome}
    (h : Settles Loads body answer) (name : String) :
    Settles Loads (guarded name body) answer := by
  intro w hw
  obtain ⟨settings, w₁, hw₁, hsettings⟩ := hw.settings
  rw [guarded, bind_startedIn, hsettings]
  cases answer with
  | error fault => exact h.bind_error w₁ hw₁
  | ok outcome =>
      refine h.bind_ok ?_ w₁ hw₁
      by_cases hlog : settings.logFailures = true
      · rw [if_pos hlog]
        cases outcome with
        | none => exact settles_pure none
        | some problem =>
            exact (settles_emit_checkFailed name problem.kind).bind_ok (settles_pure _)
      · rw [if_neg hlog]
        exact settles_pure outcome

theorem check_of_guard (host : Host σ) (mark : Nat) (name : String) (d v : Value) :
    check host (.guard mark name d) v =
      guarded name (check host d v) >>= fun outcome =>
        pure (.ofAnswer (.bool outcome.isNone)) := by
  rw [check_of_predicate rfl]
  simp only [call, invoke, callee, bind_assoc, pure_bind]

/-- Once the settings load, a guard agrees with its schema. -/
theorem guard_agree (h : Steady host Loads d) (mark : Nat) (name : String) :
    Agree host Loads (.guard mark name d) d := by
  apply agree_iff.mpr
  intro v
  rw [check_of_guard]
  obtain ⟨fault | _ | problem, hrun⟩ := h v
  · exact .failed (guarded_settles hrun name).bind_error hrun
  · exact .passed ((guarded_settles hrun name).bind_ok (settles_pure _)) hrun
  · exact .rejected ((guarded_settles hrun name).bind_ok (settles_pure _)) hrun

end Check

end ShapeCheck
