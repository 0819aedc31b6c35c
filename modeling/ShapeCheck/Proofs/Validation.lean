import ShapeCheck.Guard
import ShapeCheck.Proofs.Conformance
import ShapeCheck.Proofs.Guards
import ShapeCheck.Proofs.Inert
import ShapeCheck.Proofs.Wordings

/-!
# Validation

Validation gives a value back that the guard accepts.  It refuses a value that the guard
rejects with the very mismatch of the check, the value itself and the text of the mismatch.
So it needs that text, and where the mismatch has none validation fails instead: something
that the text would spell is an integer with too many digits, or a predicate whose name
cannot be looked up.

Main statement: what a validation ends in, by what the check of the guard answers
(`Guard.validate_settles`).
-/

namespace ShapeCheck.Guard

open Run Check Wording

variable {σ : Type} {host : Host σ} {g : Guard} {v : Value} {problem : Problem} {reason : Fault}

/-- A guard whose check is settled answers as it did once. -/
theorem check_settles {w w' : World σ} {answer : Except Fault Outcome}
    (hpure : Pure host Loads g.schema v) (hw : Loads w)
    (hcheck : (g.check host v).startedIn w = (answer, w')) :
    Settles Loads (g.check host v) answer := by
  obtain ⟨answer, hbody⟩ := check_settled hpure
  exact (Settled.settles ⟨answer, guarded_settles hbody g.name⟩ hw hcheck).1

theorem settles_accepted (hcheck : Settles Loads (g.check host v) (.ok none)) :
    Settles Loads (g.validate host v) (.ok (.accepted v)) :=
  hcheck.bind_ok (settles_pure _)

/-- A rejected value is refused as far as the mismatch has a text. -/
theorem settles_refused (hcheck : Settles Loads (g.check host v) (.ok (some problem))) :
    Settles Loads (g.validate host v) ((problem.text "").map (.refused problem v)) := by
  refine hcheck.bind_ok ?_
  change Settles Loads
    (lift (problem.text "") >>= fun text => pure (Validation.refused problem v text)) _
  generalize problem.text "" = answer
  cases answer with
  | error reason => exact (settles_lift _).bind_error
  | ok text => exact (settles_lift _).bind_ok (settles_pure _)

/-- What a validation ends in.  A value that the guard rejects is refused with its mismatch
and the text of that, exactly if the text comes to nothing that has no text of its own. -/
theorem validate_settles {w w' : World σ} {outcome : Outcome}
    (hpure : Pure host Loads g.schema v) (hw : Loads w)
    (hcheck : (g.check host v).startedIn w = (.ok outcome, w')) :
    (outcome = none → Settles Loads (g.validate host v) (.ok (.accepted v))) ∧
      ∀ problem, outcome = some problem →
        ((∃ text, problem.text "" = .ok text ∧
          Settles Loads (g.validate host v) (.ok (.refused problem v text))) ↔
            ∀ reason, ¬ (told problem).Unspoken reason) ∧
        ∀ reason, problem.text "" = .error reason →
          Settles Loads (g.validate host v) (.error reason) ∧ (told problem).Unspoken reason := by
  have hchecked := check_settles hpure hw hcheck
  have htold (problem : Problem) : fault? (problem.text "") = (told problem).fault := rfl
  refine ⟨?_, ?_⟩
  · rintro rfl
    exact settles_accepted hchecked
  · rintro problem rfl
    have hrefused := settles_refused hchecked
    refine ⟨?_, ?_⟩
    · rw [← fault_eq_none_iff, ← htold, fault_none_iff]
      refine exists_congr fun text => and_iff_left_of_imp fun htext => ?_
      rw [htext] at hrefused
      exact hrefused
    · intro reason htext
      rw [htext] at hrefused
      exact ⟨hrefused, unspoken_of_fault (fault_some_iff.mpr htext)⟩

/-- A guard of texts. -/
def textGuard : Guard := ⟨"word", Schema.ofFamily .string⟩

theorem textGuard_pure (v : Value) : Pure (σ := Unit) agreeable Loads textGuard.schema v :=
  quiet_pure (.inl (Value.inert_of_contents rfl rfl)) agreeable Loads v

/-- Why the guard of texts rejects another value. -/
def textProblem (v : Value) : Problem := .incorrectType textGuard.schema v

theorem calm_loads : Loads calm := ⟨.standard, .inl rfl⟩

/-- The null value is refused with its text. -/
theorem validate_settles_null :
    Pure agreeable Loads textGuard.schema .null ∧ Loads calm ∧
      (textGuard.check agreeable .null).startedIn calm = (.ok (some (textProblem .null)), calm) ∧
      ∃ text, (textProblem .null).text "" = .ok text ∧
        Settles Loads (textGuard.validate agreeable .null)
          (.ok (.refused (textProblem .null) .null text)) := by
  have hcheck : (textGuard.check agreeable .null).startedIn calm =
      (.ok (some (textProblem .null)), calm) := rfl
  have hends := validate_settles (textGuard_pure .null) calm_loads hcheck
  exact ⟨textGuard_pure .null, calm_loads, hcheck,
    (hends.2 _ rfl).1.mpr (fault_eq_none_iff.mp rfl)⟩

/-- An integer with too many digits is rejected by a check, and yet validation does not refuse
it, with this or any other mismatch: its digits cannot be told. -/
theorem long_integer_not_refused :
    (textGuard.check agreeable (.int ((10 ^ 5000 : Nat) : Int))).startedIn calm =
        (.ok (some (textProblem (.int ((10 ^ 5000 : Nat) : Int)))), calm) ∧
      Settles Loads (textGuard.validate agreeable (.int ((10 ^ 5000 : Nat) : Int)))
        (.error .digitLimit) ∧
      ∀ problem v text,
        ¬ Settles Loads (textGuard.validate agreeable (.int ((10 ^ 5000 : Nat) : Int)))
          (.ok (.refused problem v text)) := by
  have hlong : 10 ^ Number.maxDigits ≤ ((10 ^ 5000 : Nat) : Int).natAbs :=
    le_natAbs_pow (by decide)
  generalize ((10 ^ 5000 : Nat) : Int) = i at hlong ⊢
  have hcheck : (textGuard.check agreeable (.int i)).startedIn calm =
      (.ok (some (textProblem (.int i))), calm) := rfl
  have htext : (textProblem (.int i)).text "" = .error .digitLimit := by
    have hplain := plain_of_long hlong
    simp only [textProblem, textGuard, Schema.ofFamily, Mismatch.text, Value.mismatchText,
      Form.isSimple, hplain]
    rfl
  have hfails := settles_refused (check_settles (textGuard_pure (.int i)) calm_loads hcheck)
  rw [htext] at hfails
  refine ⟨hcheck, hfails, ?_⟩
  intro problem v text hrefused
  exact absurd (hfails.unique calm_loads hrefused) nofun

end ShapeCheck.Guard
