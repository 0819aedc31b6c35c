import ShapeCheck.Proofs.Parallel
import ShapeCheck.Proofs.Verdicts
import ShapeCheck.Schema.Build

/-!
# Unions of unions

A union may have unions among its alternatives.  Whether the alternatives stand in groups
or in one list, they are tried in the same order and up to the same one, so both checks make
the same calls, and end in the same fault or accept together.  A value that every
alternative rejects is told by group in one case and at once in the other.

The order of alternatives matters to a fault only.  What one order accepts any other accepts
too, unless it comes first to an alternative whose check fails.

Main statement: `unions_flatten`.
-/

namespace ShapeCheck

namespace Run

variable {σ α : Type} {test : α → Run σ Outcome} {w : World σ}

/-- Alternatives in two lists are tried one list after the other. -/
theorem rejections_append (items more : List α) :
    rejections test (items ++ more) = rejections test items >>= fun rejected =>
      match rejected with
      | none => pure none
      | some problems => rejections test more >>= fun others =>
        pure (others.map (problems ++ ·)) := by
  induction items with
  | nil =>
      simp only [List.nil_append, rejections, pure_bind, Option.map_id_fun', id_eq, bind_pure]
  | cons item items ih =>
      rw [List.cons_append, rejections_cons, rejections_cons, ih, bind_assoc]
      congr 1
      funext outcome
      cases outcome with
      | none => rw [pure_bind]
      | some problem =>
          simp only [bind_assoc, pure_bind]
          congr 1
          funext rejected
          cases rejected with
          | none => rw [pure_bind]; rfl
          | some problems =>
              simp only [Option.map_some, bind_assoc, pure_bind, Option.map_map]
              rfl

/-- The ways in which alternatives that are tried by groups end, beside those in which the
same alternatives end in one list. -/
inductive Regrouped : Except Fault (Option (List Problem)) →
    Except Fault (Option (List Problem)) → Prop
  | failed (fault : Fault) : Regrouped (.error fault) (.error fault)
  | passed : Regrouped (.ok none) (.ok none)
  | rejected (errors : List (List Problem)) :
      Regrouped (.ok (some (errors.map .unionNoMatch))) (.ok (some errors.flatten))

/-- Groups of alternatives are tried as their items are, and leave the same behind. -/
theorem rejections_flatten (groups : List (List α)) :
    ∃ nested flat w',
      (rejections (fun group => rejections test group >>= fun rejected =>
        pure (rejected.map .unionNoMatch)) groups).startedIn w = (nested, w') ∧
      (rejections test groups.flatten).startedIn w = (flat, w') ∧ Regrouped nested flat := by
  induction groups generalizing w with
  | nil => exact ⟨_, _, w, rfl, rfl, .rejected []⟩
  | cons group groups ih =>
      rw [List.flatten_cons, rejections_append, rejections_cons, bind_startedIn, bind_startedIn,
        bind_startedIn]
      rcases (rejections test group).startedIn w with ⟨fault | _ | problems, w₁⟩
      · exact ⟨_, _, w₁, rfl, rfl, .failed fault⟩
      · exact ⟨_, _, w₁, rfl, rfl, .passed⟩
      · obtain ⟨nested, flat, w', hnested, hflat, hregrouped⟩ := ih (w := w₁)
        simp only [pure_startedIn, Option.map_some, bind_startedIn, hnested, hflat]
        cases hregrouped with
        | failed fault => exact ⟨_, _, w', rfl, rfl, .failed fault⟩
        | passed => exact ⟨_, _, w', rfl, rfl, .passed⟩
        | rejected errors => exact ⟨_, _, w', rfl, rfl, .rejected (problems :: errors)⟩

end Run

namespace Check

open Run

variable {σ : Type} {host : Host σ} {W : World σ → Prop} {v : Value} {w : World σ}
  {schemas schemas' : List Value}

/-- The outcome of a union, by what became of its alternatives. -/
def unionAnswer (rejected : Except Fault (Option (List Problem))) : Except Fault Outcome :=
  rejected.map (Option.map .unionNoMatch)

theorem check_unionOf (host : Host σ) (schemas : List Value) (v : Value) :
    check host (Schema.unionOf schemas) v = rejections (check host · v) schemas >>= fun rejected =>
      pure (rejected.map .unionNoMatch) :=
  check_of_union rfl v

theorem check_unionOf_startedIn {answer : Except Fault (Option (List Problem))} {w' : World σ}
    (h : (rejections (check host · v) schemas).startedIn w = (answer, w')) :
    (check host (Schema.unionOf schemas) v).startedIn w = (unionAnswer answer, w') := by
  rw [check_unionOf, bind_startedIn, h]
  cases answer <;> rfl

theorem rejections_unions (groups : List (List Value)) :
    rejections (check host · v) (groups.map Schema.unionOf) =
      rejections (fun group => rejections (check host · v) group >>= fun rejected =>
        pure (rejected.map .unionNoMatch)) groups := by
  induction groups with
  | nil => rfl
  | cons group groups ih => rw [List.map_cons, rejections_cons, rejections_cons, check_unionOf, ih]

/-- What some alternative accepts a union accepts, unless it comes first to an alternative
whose check fails. -/
theorem union_accepts_or_fails (hpure : ∀ d ∈ schemas, Pure host W d v) (hw : W w)
    (haccepts : ∃ d ∈ schemas, Accepts host W d v) :
    ((check host (Schema.unionOf schemas) v).startedIn w).1 = .ok none ∨
      ∃ d ∈ schemas, ∃ fault, Settles W (check host d v) (.error fault) ∧
        ((check host (Schema.unionOf schemas) v).startedIn w).1 = .error fault := by
  have hsettled : ∀ d ∈ schemas, Settled W (check host d v) :=
    fun d hd => check_settled (hpure d hd)
  rcases hrun : (rejections (check host · v) schemas).startedIn w with ⟨fault | _ | errors, w'⟩
  · obtain ⟨before, d, after, problems, w₁, rfl, hbefore, hd⟩ := rejections_eq_error_iff.mp hrun
    have hw₁ : W w₁ := by
      have hearlier := rejections_settled fun e he => hsettled e (List.mem_append_left _ he)
      exact (hearlier.settles hw hbefore).2
    have hmem : d ∈ before ++ d :: after := by simp
    have hfails := ((hsettled d hmem).settles hw₁ hd).1
    refine .inr ⟨d, hmem, fault, hfails, ?_⟩
    rw [check_unionOf_startedIn hrun]
    rfl
  · left
    rw [check_unionOf_startedIn hrun]
    rfl
  · obtain ⟨d, hd, haccepts⟩ := haccepts
    obtain ⟨error, -, hrejects⟩ :=
      exists_of_forall₂ (settles_of_rejections_some hsettled hw hrun) hd
    exact absurd hrejects (haccepts.not_rejects hw error)

/-- A union of unions makes the same calls as the union of all their alternatives, ends in
the same fault or accepts with it, and otherwise tells by group what that tells at once.
What a union accepts is accepted by any union of the same alternatives, in whatever order
and however often they stand there, unless the check of one of them fails. -/
theorem unions_flatten (host : Host σ) (v : Value) (w : World σ) :
    (∀ groups : List (List Value), ∃ nested flat w', Regrouped nested flat ∧
      (check host (Schema.unionOf (groups.map Schema.unionOf)) v).startedIn w =
        (unionAnswer nested, w') ∧
      (check host (Schema.unionOf groups.flatten) v).startedIn w = (unionAnswer flat, w')) ∧
    ∀ (W : World σ → Prop) (schemas schemas' : List Value), W w →
      (∀ d, d ∈ schemas ↔ d ∈ schemas') → (∀ d ∈ schemas, Pure host W d v) →
      ((check host (Schema.unionOf schemas) v).startedIn w).1 = .ok none →
      ((check host (Schema.unionOf schemas') v).startedIn w).1 = .ok none ∨
        ∃ d ∈ schemas', ∃ fault, Settles W (check host d v) (.error fault) ∧
          ((check host (Schema.unionOf schemas') v).startedIn w).1 = .error fault := by
  constructor
  · intro groups
    obtain ⟨nested, flat, w', hnested, hflat, hregrouped⟩ :=
      @rejections_flatten _ _ (check host · v) w groups
    rw [← rejections_unions] at hnested
    exact ⟨nested, flat, w', hregrouped, check_unionOf_startedIn hnested,
      check_unionOf_startedIn hflat⟩
  · intro W schemas schemas' hw hsame hpure haccepts
    have hdemand : (Schema.unionOf schemas).demand = .union schemas := rfl
    rw [check_of_union hdemand] at haccepts
    have hrun : (alternatives (check host) schemas v).startedIn w = (.ok none, _) :=
      Prod.ext haccepts rfl
    obtain ⟨d, hd, haccepts⟩ :=
      alternatives_pass (fun d hd => check_settled (hpure d hd)) hw hrun
    exact union_accepts_or_fails (fun d hd => hpure d ((hsame d).mpr hd)) hw
      ⟨d, (hsame d).mp hd, haccepts⟩

/-- A text or a number. -/
def textOrNumber : List Value := [Schema.ofFamily .string, Schema.ofFamily .number]

/-- The same in the other order, and asked for a number twice. -/
def numberOrText : List Value :=
  [Schema.ofFamily .number, Schema.ofFamily .number, Schema.ofFamily .string]

/-- A text is accepted in either order of the alternatives. -/
theorem unions_flatten_text :
    (∀ d, d ∈ textOrNumber ↔ d ∈ numberOrText) ∧
      ((check agreeable (Schema.unionOf textOrNumber) (.text "x")).startedIn calm).1 = .ok none ∧
      (((check agreeable (Schema.unionOf numberOrText) (.text "x")).startedIn calm).1 = .ok none ∨
        ∃ d ∈ numberOrText, ∃ fault,
          Settles (fun w => w.cached = some .standard) (check agreeable d (.text "x"))
              (.error fault) ∧
            ((check agreeable (Schema.unionOf numberOrText) (.text "x")).startedIn calm).1 =
              .error fault) := by
  have hsame (d : Value) : d ∈ textOrNumber ↔ d ∈ numberOrText := by
    simp [textOrNumber, numberOrText, or_comm]
  refine ⟨hsame, rfl, ?_⟩
  exact (unions_flatten agreeable (.text "x") calm).2 (fun w => w.cached = some .standard) _ _ rfl
    hsame (fun d _ => agreeable_pure d _) rfl

/-- A number that refuses to be compared is accepted where anything is the first of two
alternatives, and stops the check where it is the second. -/
theorem swapped_alternatives_fail :
    [Schema.anything, signaling].Perm [signaling, Schema.anything] ∧
      ((check agreeable (Schema.unionOf [Schema.anything, signaling]) signaling).startedIn
        calm).1 = .ok none ∧
      ((check agreeable (Schema.unionOf [signaling, Schema.anything]) signaling).startedIn
        calm).1 = .error .invalidDecimal :=
  ⟨.swap _ _ _, rfl, rfl⟩

end Check

end ShapeCheck
