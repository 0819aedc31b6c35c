import ShapeCheck.Proofs.Plans

/-!
# The order in which predicates are asked

A check asks predicates, and each may keep a state and may fail.  So it matters which are
asked, about what and in which order.  `Traced` tells this for every task: the log of
things done in turn is that of the parts one after another, up to the first part that does
not pass, and the log of alternatives that of the alternatives up to the first that does
not reject.

Main statement: every check has exactly one log, and all that it does to the surroundings
is done by the queries of the log (`exists_query_log`).  A query that fails is the last one,
however deep it is made, and its fault is the fault of the check.
-/

namespace ShapeCheck.Check

open Run

variable {σ : Type}

/-- One call of a predicate, with the surroundings before and after it. -/
structure Query (σ : Type) where
  predicate : Value
  argument : Value
  before : World σ
  answer : Except Fault Value
  after : World σ

/-- The calls that are recorded while a query is answered. -/
def Query.calls (q : Query σ) : List Call := q.after.calls.drop q.before.calls.length

/-- What a part answers, told in the way that belongs to its place. -/
def tellWith (tell : Problem → Except Fault Problem) : Except Fault Outcome → Except Fault Outcome
  | .ok (some problem) => (tell problem).map some
  | answer => answer

/-- A task that is begun in given surroundings makes the queries of a log, in this order,
and ends in an answer and in surroundings. -/
inductive Traced (host : Host σ) :
    Task → World σ → List (Query σ) → Except Fault Outcome → World σ → Prop
  | check {d v : Value} {w w' : World σ} {log : List (Query σ)} {answer : Except Fault Outcome}
      (hplan : Traced host (plan d v) w log answer w') :
      Traced host (.check d v) w log answer w'
  | ask {p v : Value} {w w' : World σ} {answer : Except Fault Value}
      (hcall : (call host p v).startedIn w = (answer, w')) :
      Traced host (.ask p v) w [⟨p, v, w, answer, w'⟩] (answer.map .ofAnswer) w'
  /-- All items have passed. -/
  | done {w : World σ} : Traced host (.inTurn []) w [] (.ok none) w
  /-- A verdict other than a pass ends the turns without a query. -/
  | decided {w : World σ} {items : List Item} {answer : Except Fault Outcome}
      (hanswer : answer ≠ .ok none) :
      Traced host (.inTurn (.verdict answer :: items)) w [] answer w
  | allowed {w w' : World σ} {items : List Item} {log : List (Query σ)}
      {answer : Except Fault Outcome} (hrest : Traced host (.inTurn items) w log answer w') :
      Traced host (.inTurn (.verdict (.ok none) :: items)) w log answer w'
  /-- A part that does not pass ends the turns. -/
  | stopped {schema v : Value} {tell : Problem → Except Fault Problem} {w w' : World σ}
      {items : List Item} {log : List (Query σ)} {answer : Except Fault Outcome}
      (hpart : Traced host (.check schema v) w log answer w') (hanswer : answer ≠ .ok none) :
      Traced host (.inTurn (.part schema v tell :: items)) w log (tellWith tell answer) w'
  | passed {schema v : Value} {tell : Problem → Except Fault Problem} {w w₁ w' : World σ}
      {items : List Item} {log more : List (Query σ)} {answer : Except Fault Outcome}
      (hpart : Traced host (.check schema v) w log (.ok none) w₁)
      (hrest : Traced host (.inTurn items) w₁ more answer w') :
      Traced host (.inTurn (.part schema v tell :: items)) w (log ++ more) answer w'
  /-- All alternatives have rejected. -/
  | exhausted {v : Value} {w : World σ} {rejected : List Problem} :
      Traced host (.oneOf v rejected []) w [] (.ok (some (.unionNoMatch rejected))) w
  /-- An alternative that does not reject ends the search, also if it fails. -/
  | found {v schema : Value} {w w' : World σ} {rejected : List Problem} {schemas : List Value}
      {log : List (Query σ)} {answer : Except Fault Outcome}
      (hpart : Traced host (.check schema v) w log answer w')
      (hanswer : ∀ problem, answer ≠ .ok (some problem)) :
      Traced host (.oneOf v rejected (schema :: schemas)) w log answer w'
  | rejected {v schema : Value} {w w₁ w' : World σ} {rejected : List Problem}
      {schemas : List Value} {log more : List (Query σ)} {problem : Problem}
      {answer : Except Fault Outcome}
      (hpart : Traced host (.check schema v) w log (.ok (some problem)) w₁)
      (hrest : Traced host (.oneOf v (rejected ++ [problem]) schemas) w₁ more answer w') :
      Traced host (.oneOf v rejected (schema :: schemas)) w (log ++ more) answer w'

variable {host : Host σ} {task : Task} {d v p : Value} {w w' w'' : World σ}
  {log log' : List (Query σ)} {answer answer' : Except Fault Outcome} {fault : Fault}

/-! ## A trace tells how the run ends -/

theorem run_part (schema v : Value) (tell : Problem → Except Fault Problem) (w : World σ) :
    ((Item.part schema v tell).run host).startedIn w =
      (tellWith tell ((check host schema v).startedIn w).1,
        ((check host schema v).startedIn w).2) := by
  rw [Item.run, bind_startedIn]
  rcases (check host schema v).startedIn w with ⟨fault | _ | problem, w₁⟩
  · rfl
  · rfl
  · dsimp only
    rw [bind_startedIn, lift_startedIn]
    cases htell : tell problem <;> simp [tellWith, htell, Except.map]

theorem tellWith_eq_pass_iff {tell : Problem → Except Fault Problem} :
    tellWith tell answer = .ok none ↔ answer = .ok none := by
  rcases answer with fault | _ | problem
  · simp [tellWith]
  · simp [tellWith]
  · cases htell : tell problem <;> simp [tellWith, htell, Except.map]

theorem firstMismatch_cons_of_stop {item : Item} {items : List Item}
    (hitem : (item.run host).startedIn w = (answer, w')) (hanswer : answer ≠ .ok none) :
    (firstMismatch (Item.run host) (item :: items)).startedIn w = (answer, w') := by
  rw [firstMismatch_cons, hitem]
  split
  next heq => exact absurd (congrArg Prod.fst heq) hanswer
  next => rfl

theorem firstMismatch_cons_of_pass {item : Item} {items : List Item}
    (hitem : (item.run host).startedIn w = (.ok none, w')) :
    (firstMismatch (Item.run host) (item :: items)).startedIn w =
      (firstMismatch (Item.run host) items).startedIn w' := by
  rw [firstMismatch_cons, hitem]

theorem run_oneOf_nil (v : Value) (rejected : List Problem) :
    (Task.oneOf v rejected []).run host = pure (some (.unionNoMatch rejected)) := by
  simp only [Task.run, rejections, pure_bind, Option.map_some, List.append_nil]

theorem run_oneOf_cons (v schema : Value) (rejected : List Problem) (schemas : List Value) :
    (Task.oneOf v rejected (schema :: schemas)).run host =
      check host schema v >>= fun outcome =>
        match outcome with
        | none => pure none
        | some problem => (Task.oneOf v (rejected ++ [problem]) schemas).run host := by
  simp only [Task.run, rejections_cons, bind_assoc]
  congr 1
  funext outcome
  cases outcome with
  | none => rfl
  | some problem =>
      simp only [bind_assoc, pure_bind]
      congr 1
      funext problems
      cases problems <;> simp

/-- A traced task runs to the answer and into the surroundings that the trace tells. -/
theorem Traced.run_eq (h : Traced host task w log answer w') :
    (task.run host).startedIn w = (answer, w') := by
  induction h with
  | @check d v w _ _ _ _ ih =>
      change (ShapeCheck.check host d v).startedIn w = _
      rw [check_eq_plan]
      exact ih
  | @ask p v w w' answer hcall =>
      change (call host p v >>= fun answer => pure (Outcome.ofAnswer answer)).startedIn w = _
      rw [bind_startedIn, hcall]
      cases answer <;> rfl
  | done => rfl
  | decided hanswer => exact firstMismatch_cons_of_stop rfl hanswer
  | allowed _ ih => exact (firstMismatch_cons_of_pass rfl).trans ih
  | @stopped schema v tell _ _ _ _ _ _ hanswer ih =>
      rw [Task.run] at ih
      refine firstMismatch_cons_of_stop ?_ fun htold =>
        hanswer (tellWith_eq_pass_iff.mp htold)
      rw [run_part, ih]
  | @passed schema v tell w w₁ _ _ _ _ _ _ _ ihpart ihrest =>
      rw [Task.run] at ihpart
      have hitem : ((Item.part schema v tell).run host).startedIn w = (.ok none, w₁) := by
        rw [run_part, ihpart]
        rfl
      exact (firstMismatch_cons_of_pass hitem).trans ihrest
  | exhausted =>
      rw [run_oneOf_nil]
      rfl
  | @found _ _ _ _ _ _ _ answer _ hanswer ih =>
      rw [Task.run] at ih
      rw [run_oneOf_cons, bind_startedIn, ih]
      rcases answer with fault | _ | problem
      · rfl
      · rfl
      · exact absurd rfl (hanswer problem)
  | rejected _ _ ihpart ihrest =>
      rw [Task.run] at ihpart
      rw [run_oneOf_cons, bind_startedIn, ihpart]
      exact ihrest

/-- Two traces of one task end alike. -/
theorem Traced.end_unique (h : Traced host task w log answer w')
    (h' : Traced host task w log' answer' w'') : answer = answer' ∧ w' = w'' :=
  Prod.mk.inj (h.run_eq.symm.trans h'.run_eq)

/-- A task has at most one log. -/
theorem Traced.log_unique (h : Traced host task w log answer w')
    (h' : Traced host task w log' answer' w'') : log = log' := by
  induction h generalizing log' answer' w'' with
  | check _ ih =>
      cases h' with
      | check hplan' => exact ih hplan'
  | ask hcall =>
      cases h' with
      | ask hcall' =>
          obtain ⟨rfl, rfl⟩ := Prod.mk.inj (hcall.symm.trans hcall')
          rfl
  | done =>
      cases h' with
      | done => rfl
  | decided hanswer =>
      cases h' with
      | decided => rfl
      | allowed => exact absurd rfl hanswer
  | allowed _ ih =>
      cases h' with
      | decided hanswer' => exact absurd rfl hanswer'
      | allowed hrest' => exact ih hrest'
  | stopped hpart hanswer ih =>
      cases h' with
      | stopped hpart' => exact ih hpart'
      | passed hpart' => exact absurd (hpart.end_unique hpart').1 hanswer
  | passed hpart _ ihpart ihrest =>
      cases h' with
      | stopped hpart' hanswer' => exact absurd (hpart.end_unique hpart').1.symm hanswer'
      | passed hpart' hrest' =>
          obtain rfl := (hpart.end_unique hpart').2
          rw [ihpart hpart', ihrest hrest']
  | exhausted =>
      cases h' with
      | exhausted => rfl
  | found hpart hanswer ih =>
      cases h' with
      | found hpart' => exact ih hpart'
      | rejected hpart' => exact absurd (hpart.end_unique hpart').1 (hanswer _)
  | rejected hpart _ ihpart ihrest =>
      cases h' with
      | found hpart' hanswer' => exact absurd (hpart.end_unique hpart').1.symm (hanswer' _)
      | rejected hpart' hrest' =>
          obtain ⟨hproblem, rfl⟩ := hpart.end_unique hpart'
          obtain rfl := Option.some.inj (Except.ok.inj hproblem)
          rw [ihpart hpart', ihrest hrest']

/-! ## Every check has a trace -/

/-- The parts that a task may check, each a schema with its value. -/
def Task.Comes (schema v : Value) : Task → Prop
  | .check d x => schema = d ∧ v = x
  | .ask .. => False
  | .inTurn items => ∃ tell, .part schema v tell ∈ items
  | .oneOf x _ schemas => v = x ∧ schema ∈ schemas

theorem Item.mem_listed {listing : Listing} {item : Value × Value → Item} {i : Item} :
    i ∈ Item.listed listing item ↔
      (∃ entry ∈ listing.members, item entry = i) ∨
        ∃ fault, listing.fault = some fault ∧ .verdict (.error fault) = i := by
  simp [Item.listed]

theorem Item.member_eq_part {shape schema : Value} {strict : Bool} {entry : Value × Value}
    {tell : Problem → Except Fault Problem}
    (h : Item.member shape strict entry = .part schema v tell) :
    shape.Assigns entry.1 schema ∧ v = entry.2 := by
  obtain ⟨key, item⟩ := entry
  rcases shape.key_cases key with ⟨found, hkey⟩ | ⟨found, hkey⟩ | hkey | ⟨fault, hkey⟩
  · rw [Item.member_of_holds hkey] at h
    obtain ⟨rfl, rfl, -⟩ := Item.part.inj h
    exact ⟨.inl hkey, rfl⟩
  · rw [Item.member_of_covers hkey] at h
    obtain ⟨rfl, rfl, -⟩ := Item.part.inj h
    exact ⟨.inr hkey, rfl⟩
  · rw [Item.member_of_leaves hkey] at h
    cases h
  · rw [Item.member_of_error hkey] at h
    cases h

theorem next_of_mem_members {declared shape schema x : Value} {strict : Bool}
    {tell : Problem → Except Fault Problem} (hkeyed : Keyed d v declared shape)
    (h : .part schema x tell ∈ Item.members shape v strict) : Next (d, v) (schema, x) := by
  rcases Item.mem_listed.mp h with ⟨entry, hentry, hitem⟩ | ⟨fault, -, hitem⟩
  · obtain ⟨hkey, rfl⟩ := Item.member_eq_part hitem
    exact .member hkeyed hentry hkey
  · cases hitem

theorem part_notMem_required {declared schema x : Value}
    {tell : Problem → Except Fault Problem} :
    .part schema x tell ∉ Item.required declared v := by
  intro h
  rcases Item.mem_listed.mp h with ⟨entry, -, hitem⟩ | ⟨fault, -, hitem⟩ <;> cases hitem

/-- The parts that a plan comes to are next parts of the check. -/
theorem plan_comes {schema x : Value} (h : (plan d v).Comes schema x) :
    Next (d, v) (schema, x) := by
  have hrefused : ¬ (Task.inTurn [.verdict (.ok (some (.incorrectType d v)))]).Comes schema x := by
    simp [Task.Comes]
  rw [plan] at h
  cases hdemand : d.demand with
  | anything => simp [hdemand, Task.Comes] at h
  | test accepts => simp [hdemand, Task.Comes] at h
  | nullish => simp [hdemand, Task.Comes] at h
  | checker f p =>
      simp only [hdemand] at h
      split at h
      next => exact h.elim
      next => exact absurd h hrefused
  | array element =>
      simp only [hdemand] at h
      split at h
      next =>
        obtain ⟨tell, hmem⟩ := h
        obtain ⟨entry, hentry, hitem⟩ := List.mem_map.mp hmem
        obtain ⟨rfl, rfl, -⟩ := Item.part.inj hitem
        exact (.element hdemand (List.fst_mem_of_mem_zipIdx hentry))
      next => exact absurd h hrefused
  | record value =>
      simp only [hdemand] at h
      split at h
      next hvalue =>
        obtain ⟨tell, hmem⟩ := h
        rcases Item.mem_listed.mp hmem with ⟨entry, hentry, hitem⟩ | ⟨fault, -, hitem⟩
        · obtain ⟨rfl, rfl, -⟩ := Item.part.inj hitem
          exact (.value hdemand hvalue hentry)
        · cases hitem
      next => exact absurd h hrefused
  | optional own others =>
      simp only [hdemand] at h
      split at h
      next hvalue =>
        obtain ⟨tell, hmem⟩ := h
        have hkeyed : Keyed d v (.dict own) (.dict others) := .optional hdemand hvalue
        rcases List.mem_append.mp hmem with hmem | hmem
        · rcases List.mem_append.mp hmem with hmem | hmem
          · exact (next_of_mem_members hkeyed hmem)
          · exact absurd hmem part_notMem_required
        · exact (next_of_mem_members hkeyed hmem)
      next => exact absurd h hrefused
  | union schemas =>
      simp only [hdemand] at h
      obtain ⟨rfl, hschema⟩ := h
      exact (.alternative hdemand hschema)
  | unknown tag => simp [hdemand, Task.Comes] at h
  | predicate =>
      simp only [hdemand] at h
      exact h.elim
  | literal l =>
      simp only [hdemand] at h
      split at h
      next => simp [Task.Comes] at h
      next => exact absurd h hrefused
  | shape =>
      simp only [hdemand] at h
      split at h
      next => exact absurd h hrefused
      next hvalue =>
        obtain ⟨tell, hmem⟩ := h
        have hkeyed : Keyed d v d d := .shape hdemand (by simpa using hvalue)
        rcases List.mem_append.mp hmem with hmem | hmem
        · exact absurd hmem part_notMem_required
        · exact (next_of_mem_members hkeyed hmem)

/-- A predicate that a plan asks is asked about the value itself. -/
theorem plan_asks {x : Value} (h : plan d v = .ask p x) : Asks d v p ∧ x = v := by
  rw [plan] at h
  cases hdemand : d.demand with
  | checker f q =>
      simp only [hdemand] at h
      split at h
      next hvalue =>
        obtain ⟨rfl, rfl⟩ := Task.ask.inj h
        exact ⟨.checker hdemand hvalue, rfl⟩
      next => cases h
  | predicate =>
      simp only [hdemand] at h
      obtain ⟨rfl, rfl⟩ := Task.ask.inj h
      exact ⟨.predicate hdemand, rfl⟩
  | anything | test | nullish | union | unknown => simp [hdemand] at h
  | array | record | optional | literal | shape =>
      simp only [hdemand] at h
      split at h <;> cases h

/-- A task has a trace, in all surroundings. -/
def Traceable (host : Host σ) (task : Task) : Prop :=
  ∀ w, ∃ log answer w', Traced host task w log answer w'

theorem traceable_inTurn {items : List Item}
    (h : ∀ schema v tell, .part schema v tell ∈ items → Traceable host (.check schema v)) :
    Traceable host (.inTurn items) := by
  induction items with
  | nil => exact fun w => ⟨_, _, _, .done⟩
  | cons head tail ih =>
      have hrest := ih fun schema v tell hmem => h schema v tell (List.mem_cons_of_mem _ hmem)
      intro w
      cases head with
      | verdict answer =>
          by_cases hanswer : answer = .ok none
          · subst hanswer
            obtain ⟨log, answer, w', htail⟩ := hrest w
            exact ⟨log, answer, w', .allowed htail⟩
          · exact ⟨_, _, _, .decided hanswer⟩
      | part schema v tell =>
          obtain ⟨log, answer, w₁, hpart⟩ := h schema v tell List.mem_cons_self w
          by_cases hanswer : answer = .ok none
          · subst hanswer
            obtain ⟨more, answer, w', htail⟩ := hrest w₁
            exact ⟨log ++ more, answer, w', .passed hpart htail⟩
          · exact ⟨_, _, _, .stopped hpart hanswer⟩

theorem traceable_oneOf {schemas : List Value}
    (h : ∀ schema ∈ schemas, Traceable host (.check schema v)) (rejected : List Problem) :
    Traceable host (.oneOf v rejected schemas) := by
  induction schemas generalizing rejected with
  | nil => exact fun w => ⟨_, _, _, .exhausted⟩
  | cons head tail ih =>
      intro w
      obtain ⟨log, answer, w₁, hpart⟩ := h head List.mem_cons_self w
      rcases answer with fault | _ | problem
      · exact ⟨log, _, w₁, .found hpart nofun⟩
      · exact ⟨log, _, w₁, .found hpart nofun⟩
      · have hrest := ih (fun schema hmem => h schema (List.mem_cons_of_mem _ hmem))
          (rejected ++ [problem])
        obtain ⟨more, answer, w', htail⟩ := hrest w₁
        exact ⟨log ++ more, answer, w', .rejected hpart htail⟩

theorem traceable_check (host : Host σ) (d v : Value) : Traceable host (.check d v) := by
  induction d, v using Next.induction with
  | step d v ih =>
      suffices hplan : Traceable host (plan d v) by
        intro w
        obtain ⟨log, answer, w', htraced⟩ := hplan w
        exact ⟨log, answer, w', .check htraced⟩
      have hparts (schema x : Value) (h : (plan d v).Comes schema x) :
          Traceable host (.check schema x) := ih schema x (plan_comes h)
      cases hplan : plan d v with
      | check d' v' => exact hparts d' v' (hplan ▸ ⟨rfl, rfl⟩)
      | ask p x => exact fun w => ⟨_, _, _, .ask rfl⟩
      | inTurn items =>
          apply traceable_inTurn
          intro schema x tell hmem
          exact hparts schema x (hplan ▸ ⟨tell, hmem⟩)
      | oneOf x rejected schemas =>
          apply traceable_oneOf
          intro schema hmem
          exact hparts schema x (hplan ▸ ⟨rfl, hmem⟩)

/-! ## The queries of a log -/

/-- Queries that go on from each other's surroundings, all answered.  If the last one fails
instead, its fault is told. -/
inductive Linked (host : Host σ) : World σ → List (Query σ) → Option Fault → World σ → Prop
  | nil {w : World σ} : Linked host w [] none w
  | answered {p v answer : Value} {w w₁ w' : World σ} {log : List (Query σ)}
      {failure : Option Fault} (hcall : (call host p v).startedIn w = (.ok answer, w₁))
      (hrest : Linked host w₁ log failure w') :
      Linked host w (⟨p, v, w, .ok answer, w₁⟩ :: log) failure w'
  | failed {p v : Value} {w w' : World σ} {fault : Fault}
      (hcall : (call host p v).startedIn w = (.error fault, w')) :
      Linked host w [⟨p, v, w, .error fault, w'⟩] (some fault) w'

variable {failure : Option Fault} {q : Query σ}

theorem Linked.append {w₁ : World σ} {more : List (Query σ)} (h : Linked host w log none w₁)
    (hmore : Linked host w₁ more failure w') : Linked host w (log ++ more) failure w' := by
  generalize hnone : (none : Option Fault) = first at h
  induction h with
  | nil => exact hmore
  | answered hcall _ ih => exact .answered hcall (ih hmore hnone)
  | failed => cases hnone

theorem Linked.genuine (h : Linked host w log failure w') (hq : q ∈ log) :
    (call host q.predicate q.argument).startedIn q.before = (q.answer, q.after) := by
  induction h with
  | nil => cases hq
  | answered hcall _ ih =>
      rcases List.mem_cons.mp hq with rfl | hq
      · exact hcall
      · exact ih hq
  | failed hcall =>
      obtain rfl := List.mem_singleton.mp hq
      exact hcall

/-- A query that fails is where the log ends. -/
theorem Linked.end_of_failed (h : Linked host w log failure w') (hq : q ∈ log)
    (hfails : q.answer = .error fault) : failure = some fault ∧ w' = q.after := by
  induction h with
  | nil => cases hq
  | answered _ _ ih =>
      rcases List.mem_cons.mp hq with rfl | hq
      · cases hfails
      · exact ih hq
  | failed =>
      obtain rfl := List.mem_singleton.mp hq
      obtain rfl := Except.error.inj hfails
      exact ⟨rfl, rfl⟩

/-- The queries of a trace are linked from its beginning to its end, and the fault of the
last one is what the task answers. -/
theorem Traced.linked (h : Traced host task w log answer w') :
    ∃ failure, Linked host w log failure w' ∧
      ∀ fault, failure = some fault → answer = .error fault := by
  have hnone : ∀ {answer : Except Fault Outcome} (fault : Fault),
      (none : Option Fault) = some fault → answer = .error fault := nofun
  induction h with
  | check _ ih => exact ih
  | @ask _ _ _ _ answer hcall =>
      cases answer with
      | error fault =>
          refine ⟨some fault, .failed hcall, ?_⟩
          rintro _ ⟨⟩
          rfl
      | ok answer => exact ⟨none, .answered hcall .nil, hnone⟩
  | done | decided | exhausted => exact ⟨none, .nil, hnone⟩
  | allowed _ ih => exact ih
  | stopped _ _ ih =>
      obtain ⟨failure, hlinked, hfailure⟩ := ih
      refine ⟨failure, hlinked, ?_⟩
      intro fault heq
      rw [hfailure fault heq]
      rfl
  | found _ _ ih => exact ih
  | passed _ _ ihpart ihrest | rejected _ _ ihpart ihrest =>
      obtain ⟨failure, hpart, hfailure⟩ := ihpart
      -- A part that is followed by others has not failed.
      cases failure with
      | some fault => exact absurd (hfailure fault rfl) nofun
      | none =>
          obtain ⟨failure, hrest, hfailure⟩ := ihrest
          exact ⟨failure, hpart.append hrest, hfailure⟩

/-! ## Runs that are put together from steps -/

/-- What holds of runs that only give an answer, and of runs one after another. -/
structure Sequential (R : ∀ {α : Type}, Run σ α → Prop) : Prop where
  lift {α : Type} (answer : Except Fault α) : R (Run.lift answer)
  bind {α β : Type} {run : Run σ α} {next : α → Run σ β} (hrun : R run)
    (hnext : ∀ a, R (next a)) : R (run >>= next)

namespace Sequential

variable {R : ∀ {α : Type}, Run σ α → Prop} (h : Sequential (σ := σ) R)

include h

theorem pure {α : Type} (a : α) : R (Pure.pure a) := h.lift (.ok a)

theorem firstMismatch {α : Type} {test : α → Run σ Outcome} {items : List α}
    (htest : ∀ item ∈ items, R (test item)) : R (Run.firstMismatch test items) := by
  induction items with
  | nil => exact h.pure none
  | cons head tail ih =>
      apply h.bind (htest head List.mem_cons_self)
      intro outcome
      cases outcome with
      | some problem => exact h.pure _
      | none => exact ih fun item hitem => htest item (List.mem_cons_of_mem _ hitem)

theorem rejections {α : Type} {test : α → Run σ Outcome} {items : List α}
    (htest : ∀ item ∈ items, R (test item)) : R (Run.rejections test items) := by
  induction items with
  | nil => exact h.pure _
  | cons head tail ih =>
      apply h.bind (htest head List.mem_cons_self)
      intro outcome
      cases outcome with
      | none => exact h.pure _
      | some problem =>
          have htail := ih fun item hitem => htest item (List.mem_cons_of_mem _ hitem)
          exact h.bind htail fun _ => h.pure _

theorem run_task (hask : ∀ p x, task = .ask p x → R (ShapeCheck.call host p x))
    (hparts : ∀ schema x, task.Comes schema x → R (ShapeCheck.check host schema x)) :
    R (task.run host) := by
  cases task with
  | check d v => exact hparts d v ⟨rfl, rfl⟩
  | ask p v => exact h.bind (hask p v rfl) fun _ => h.pure _
  | inTurn items =>
      apply h.firstMismatch
      intro item hitem
      cases item with
      | verdict answer => exact h.lift _
      | part schema v tell =>
          apply h.bind (hparts schema v ⟨tell, hitem⟩)
          intro outcome
          cases outcome with
          | none => exact h.pure _
          | some problem => exact h.bind (h.lift _) fun _ => h.pure _
  | oneOf v rejected schemas =>
      apply h.bind
      · exact h.rejections fun schema hschema => hparts schema v ⟨rfl, hschema⟩
      · exact fun _ => h.pure _

/-- What holds of every predicate that a check may ask holds of the check. -/
theorem check (hasks : ∀ d' v', Part (d, v) (d', v') → ∀ p, Asks d' v' p →
    R (ShapeCheck.call host p v')) : R (ShapeCheck.check host d v) := by
  induction d, v using Next.induction with
  | step d v ih =>
      rw [check_eq_plan]
      apply h.run_task
      · intro p x hplan
        obtain ⟨hp, rfl⟩ := plan_asks hplan
        exact hasks d x .refl p hp
      · intro schema x hcomes
        have hnext := plan_comes hcomes
        exact ih schema x hnext fun d' v' hpart => hasks d' v' (.head hnext hpart)

end Sequential

/-- What holds of the steps that checks are put together from, and of runs one after
another. -/
structure Compositional (host : Host σ) (R : ∀ {α : Type}, Run σ α → Prop) : Prop where
  lift {α : Type} (answer : Except Fault α) : R (Run.lift answer)
  ask (mark : Nat) (name : Option String) (v : Value) : R (Run.ask host mark name v)
  record (name : Option String) (v : Value) : R (Run.record name v)
  bind {α β : Type} {run : Run σ α} {next : α → Run σ β} (hrun : R run)
    (hnext : ∀ a, R (next a)) : R (run >>= next)
  guarded (name : String) {body : Run σ Outcome} (hbody : R body) : R (Run.guarded name body)

/-- A check under a name is put together from reading the settings, the check and an event. -/
theorem compositional_of_steps {R : ∀ {α : Type}, Run σ α → Prop}
    (lift : ∀ {α : Type} (answer : Except Fault α), R (Run.lift answer))
    (ask : ∀ mark name v, R (Run.ask host mark name v)) (record : ∀ name v, R (Run.record name v))
    (settings : R Run.settings) (emit : ∀ event, R (Run.emit event))
    (bind : ∀ {α β : Type} {run : Run σ α} {next : α → Run σ β}, R run → (∀ a, R (next a)) →
      R (run >>= next)) : Compositional host R where
  lift := lift
  ask := ask
  record := record
  bind := bind
  guarded name body hbody := by
    apply bind settings
    intro settings
    apply bind hbody
    intro outcome
    split
    · cases outcome with
      | none => exact bind (lift (.ok ())) fun _ => lift (.ok _)
      | some problem => exact bind (emit _) fun _ => lift (.ok _)
    · exact bind (lift (.ok ())) fun _ => lift (.ok _)

namespace Compositional

variable {R : ∀ {α : Type}, Run σ α → Prop} (h : Compositional host R)

include h

theorem sequential : Sequential (σ := σ) R := ⟨h.lift, h.bind⟩

/-- It holds of a call, if it holds of the checks that this may lead to. -/
theorem call_of_checks (hcheck : ∀ schema, schema.descent < p.descent → ∀ v,
    R (ShapeCheck.check host schema v)) (v : Value) : R (ShapeCheck.call host p v) := by
  have hdescent := descent_callee p
  unfold call invoke
  cases hcallee : callee p with
  | function mark name attrs schema =>
      cases schema with
      | none => exact h.ask ..
      | some schema =>
          rw [hcallee, Value.descent_function] at hdescent
          apply h.bind (h.record name v)
          exact fun _ => h.bind (hcheck schema (by omega) v) fun _ => h.sequential.pure _
  | guard mark name schema =>
      rw [hcallee, Value.descent_guard] at hdescent
      exact h.bind (h.guarded name (hcheck schema (by omega) v)) fun _ => h.sequential.pure _
  | tagged mark tag form => cases form <;> exact h.lift _
  | _ => exact h.lift _

/-- What holds of the steps holds of every check. -/
theorem check (d v : Value) : R (ShapeCheck.check host d v) := by
  induction hdescent : d.descent using Nat.strongRecOn generalizing d v with
  | _ n ih =>
      have hless (schema : Value) (hlt : schema.descent < d.descent) (x : Value) :
          R (ShapeCheck.check host schema x) := ih schema.descent (hdescent ▸ hlt) schema x rfl
      rw [check_eq_plan]
      apply h.sequential.run_task
      · intro p x hplan
        -- A predicate is at most as deep as the schema, and its own schemas are less deep.
        have hp := (plan_asks hplan).1.descent_le
        exact h.call_of_checks (fun schema hlt => hless schema (by omega)) x
      · intro schema x hcomes
        exact hless schema (plan_comes hcomes).descent_lt x

theorem call (p v : Value) : R (ShapeCheck.call host p v) :=
  h.call_of_checks (fun schema _ => h.check schema) v

end Compositional

/-! ## Calls that are recorded -/

/-- A run only adds to the recorded calls. -/
def Appends {α : Type} (run : Run σ α) : Prop := ∀ w, w.calls <+: (run.startedIn w).2.calls

section

variable {α β : Type}

theorem appends_lift (answer : Except Fault α) : Appends (σ := σ) (lift answer) :=
  fun _ => List.prefix_rfl

theorem Appends.bind {run : Run σ α} {next : α → Run σ β} (h : Appends run)
    (hnext : ∀ a, Appends (next a)) : Appends (run >>= next) := by
  intro w
  have hrun := h w
  rw [bind_startedIn]
  cases heq : run.startedIn w with
  | mk answer w₁ =>
      rw [heq] at hrun
      cases answer with
      | error fault => exact hrun
      | ok a => exact hrun.trans (hnext a w₁)

theorem appends_settings : Appends (σ := σ) settings := by
  intro w
  unfold startedIn settings
  split
  · exact List.prefix_rfl
  · split <;> exact List.prefix_rfl

theorem appends_emit (event : Log.Event) : Appends (σ := σ) (emit event) := by
  intro w
  unfold startedIn emit
  split <;> exact List.prefix_rfl

end

theorem appends_compositional (host : Host σ) : Compositional host Appends :=
  compositional_of_steps appends_lift (fun _ _ _ _ => List.prefix_append ..)
    (fun _ _ _ => List.prefix_append ..) appends_settings appends_emit Appends.bind

theorem Linked.calls_eq (h : Linked host w log failure w') :
    w'.calls = w.calls ++ log.flatMap Query.calls := by
  have hquery (q : Query σ) (hq : (call host q.predicate q.argument).startedIn q.before =
      (q.answer, q.after)) : q.before.calls ++ q.calls = q.after.calls := by
    have happends := (appends_compositional host).call q.predicate q.argument q.before
    rw [hq] at happends
    exact List.prefix_iff_eq_append.mp happends
  induction h with
  | nil => simp
  | answered hcall _ ih =>
      rw [ih, ← hquery ⟨_, _, _, _, _⟩ hcall, List.flatMap_cons, List.append_assoc]
  | failed hcall =>
      rw [← hquery ⟨_, _, _, _, _⟩ hcall, List.flatMap_singleton]

/-! ## Queries within queries -/

/-- To answer a query its argument is checked in turn, against a schema and in given
surroundings: the predicate is a guard, or it was made from a schema. -/
inductive Inner (host : Host σ) (q : Query σ) : Value → World σ → Prop
  | function {mark : Nat} {name : Option String} {attrs : List (String × Value)} {schema : Value}
      (hcallee : callee q.predicate = .function mark name attrs (some schema)) :
      Inner host q schema { q.before with calls := q.before.calls ++ [⟨name, q.argument⟩] }
  | guard {mark : Nat} {name : String} {schema : Value} {settings : Settings} {w₁ : World σ}
      (hcallee : callee q.predicate = .guard mark name schema)
      (hsettings : Run.settings.startedIn q.before = (.ok settings, w₁)) :
      Inner host q schema w₁

/-- The queries that a check makes, at any depth. -/
inductive Makes (host : Host σ) : Value → Value → World σ → Query σ → Prop
  | itself {d v : Value} {w w' : World σ} {log : List (Query σ)}
      {answer : Except Fault Outcome} {q : Query σ}
      (htraced : Traced host (.check d v) w log answer w') (hq : q ∈ log) : Makes host d v w q
  | within {d v schema : Value} {w w₁ w' : World σ} {log : List (Query σ)}
      {answer : Except Fault Outcome} {q inner : Query σ}
      (htraced : Traced host (.check d v) w log answer w') (hq : q ∈ log)
      (hinner : Inner host q schema w₁) (hmakes : Makes host schema q.argument w₁ inner) :
      Makes host d v w inner

theorem Inner.call_fails {schema : Value} {w₁ : World σ} (h : Inner host q schema w₁)
    (hfails : (check host schema q.argument).startedIn w₁ = (.error fault, w')) :
    (call host q.predicate q.argument).startedIn q.before = (.error fault, w') := by
  cases h with
  | function hcallee =>
      simp only [call, invoke, hcallee]
      refine bind_eq_error_iff.mpr (.inr ⟨(), _, rfl, ?_⟩)
      exact bind_pure_eq_error_iff.mpr hfails
  | guard hcallee hsettings =>
      simp only [call, invoke, hcallee]
      refine bind_pure_eq_error_iff.mpr (bind_eq_error_iff.mpr (.inr ⟨_, _, hsettings, ?_⟩))
      exact bind_eq_error_iff.mpr (.inl hfails)

theorem Traced.fails_of_mem (h : Traced host (.check d v) w log answer w') (hq : q ∈ log)
    (hfails : q.answer = .error fault) :
    (ShapeCheck.check host d v).startedIn w = (.error fault, q.after) := by
  obtain ⟨failure, hlinked, hfailure⟩ := h.linked
  obtain ⟨rfl, rfl⟩ := hlinked.end_of_failed hq hfails
  have hrun := h.run_eq
  rw [hfailure fault rfl] at hrun
  exact hrun

/-- The fault of a query is the fault of the check, and nothing happens after it. -/
theorem Makes.fails (h : Makes host d v w q) (hfails : q.answer = .error fault) :
    (check host d v).startedIn w = (.error fault, q.after) := by
  induction h with
  | itself htraced hq => exact htraced.fails_of_mem hq hfails
  | @within _ _ _ _ _ _ _ _ q inner htraced hq hinner _ ih =>
      obtain ⟨failure, hlinked, -⟩ := htraced.linked
      have hcall := (hlinked.genuine hq).symm.trans (hinner.call_fails (ih hfails))
      obtain ⟨hanswer, hafter⟩ := Prod.mk.inj hcall
      rw [← hafter]
      exact htraced.fails_of_mem hq hanswer

/-! ## Checks that ask at once or not at all -/

theorem plan_of_asks (h : Asks d v p) : plan d v = .ask p v := by
  cases h with
  | predicate hdemand => simp only [plan, hdemand]
  | checker hdemand hvalue => simp only [plan, hdemand, hvalue, if_true]

/-- Items that ask for no check, some of which does not pass. -/
theorem Traced.log_eq_nil {items rest : List Item}
    (hitems : ∀ item ∈ items, ∃ answer, item = .verdict answer)
    (hstop : rest = [] ∨ ∃ answer ≠ .ok none, .verdict answer ∈ items)
    (h : Traced host (.inTurn (items ++ rest)) w log answer w') : log = [] := by
  induction items with
  | nil =>
      obtain rfl : rest = [] := by simpa using hstop
      cases h
      rfl
  | cons head tail ih =>
      obtain ⟨verdict, rfl⟩ := hitems head List.mem_cons_self
      cases h with
      | decided => rfl
      | allowed hrest =>
          apply ih (fun item hitem => hitems item (List.mem_cons_of_mem _ hitem)) ?_ hrest
          refine hstop.imp_right ?_
          rintro ⟨answer, hanswer, hmem⟩
          rcases List.mem_cons.mp hmem with heq | hmem
          · exact absurd (Item.verdict.inj heq) hanswer
          · exact ⟨answer, hanswer, hmem⟩

/-- Items that stand behind one that stops the turns contribute nothing. -/
theorem Traced.cut {items rest : List Item} {stop : Except Fault Outcome}
    (hstop : stop ≠ .ok none)
    (h : Traced host (.inTurn (items ++ .verdict stop :: rest)) w log answer w') :
    Traced host (.inTurn (items ++ [.verdict stop])) w log answer w' := by
  induction items generalizing w log answer w' with
  | nil =>
      cases h with
      | decided => exact .decided hstop
      | allowed => exact absurd rfl hstop
  | cons head tail ih =>
      cases h with
      | decided hanswer => exact .decided hanswer
      | allowed hrest => exact .allowed (ih hrest)
      | stopped hpart hanswer => exact .stopped hpart hanswer
      | passed hpart hrest => exact .passed hpart (ih hrest)

theorem exists_verdict_of_mem_required {declared : Value} {item : Item}
    (h : item ∈ Item.required declared v) : ∃ answer, item = .verdict answer := by
  rcases Item.mem_listed.mp h with ⟨entry, -, rfl⟩ | ⟨fault, -, rfl⟩
  · exact ⟨_, rfl⟩
  · exact ⟨_, rfl⟩

/-- A check goes through `first`, and then its strict pass asks of every member of the value
that `shape` has or covers its key. -/
inductive StrictPass (d v : Value) : (first : List Item) → (shape : Value) → Prop
  | shape (hdemand : d.demand = .shape) (hvalue : v.isPrimitive = false) :
      StrictPass d v (Item.required d v) d
  | optional {own others : List (Value × Value)} (hdemand : d.demand = .optional own others)
      (hvalue : v.isObject = true) :
      StrictPass d v (Item.members (.dict others) v false ++ Item.required (.dict own) v)
        (.dict others)

theorem plan_of_strictPass {first : List Item} {shape : Value}
    (h : StrictPass d v first shape) :
    plan d v = .inTurn (first ++ Item.members shape v true) := by
  cases h with
  | shape hdemand hvalue =>
      simp only [plan, hdemand, hvalue]
      rfl
  | optional hdemand hvalue => simp only [plan, hdemand, hvalue, if_true]

theorem plan_of_misfits (h : Misfits d v) :
    plan d v = .inTurn [.verdict (.ok (some (.incorrectType d v)))] := by
  cases h with
  | test hdemand hvalue =>
      simp only [plan, hdemand, hvalue]
      rfl
  | nullish hdemand htruth =>
      simp only [plan, hdemand, htruth]
      rfl
  | checker hdemand hvalue | record hdemand hvalue | optional hdemand hvalue =>
      simp only [plan, hdemand, hvalue]
      rfl
  | shape hdemand hvalue => simp only [plan, hdemand, hvalue, if_true]
  | array hdemand hvalue =>
      cases v with
      | sequence => cases hvalue
      | _ => simp only [plan, hdemand]
  | literal hdemand hvalue =>
      cases v with
      | atom => cases hvalue
      | _ => simp only [plan, hdemand]

theorem exists_plan_verdict
    (h : Fits d v ∨ Misfits d v ∨ (∃ l, d.demand = .literal l) ∨ d.demand = .nullish) :
    ∃ items, plan d v = .inTurn items ∧ ∀ item ∈ items, ∃ answer, item = .verdict answer := by
  have hone (answer : Except Fault Outcome) :
      ∀ item ∈ [Item.verdict answer], ∃ answer, item = .verdict answer := by simp
  rcases h with hfits | hmisfits | ⟨l, hdemand⟩ | hdemand
  · cases hfits with
    | anything hdemand => exact ⟨[], by rw [plan, hdemand], nofun⟩
    | test hdemand | nullish hdemand => exact ⟨_, by rw [plan, hdemand], hone _⟩
  · exact ⟨_, plan_of_misfits hmisfits, hone _⟩
  · cases hvalue : v.isPrimitive with
    | false => exact ⟨_, plan_of_misfits (.literal hdemand hvalue), hone _⟩
    | true =>
        cases v with
        | atom => exact ⟨_, by rw [plan, hdemand], hone _⟩
        | _ => cases hvalue
  · exact ⟨_, by rw [plan, hdemand], hone _⟩

/-! ## The log of a check -/

/-- A log tells what the check of a value against a schema asks, in given surroundings. -/
structure IsLog (host : Host σ) (d v : Value) (w : World σ) (log : List (Query σ)) : Prop where
  /-- It is the log that the order of the parts makes, and no other is. -/
  traced (log' : List (Query σ)) (answer : Except Fault Outcome) (w' : World σ) :
    Traced host (.check d v) w log' answer w' ↔
      log' = log ∧ (check host d v).startedIn w = (answer, w')
  /-- Each query finds the surroundings that the last one left behind. -/
  linked : ∃ failure, Linked host w log failure ((check host d v).startedIn w).2 ∧
    ∀ fault, failure = some fault → ((check host d v).startedIn w).1 = .error fault
  /-- The calls that are recorded are those of the queries. -/
  recorded : ((check host d v).startedIn w).2.calls = w.calls ++ log.flatMap Query.calls
  /-- A query to a predicate of the caller is one call, with the argument itself. -/
  recorded_one : ∀ q ∈ log, ∀ mark name attrs,
    callee q.predicate = .function mark name attrs none → q.calls = [⟨name, q.argument⟩]
  /-- A predicate is asked once, about the value itself. -/
  asks (p : Value) : Asks d v p → ∃ q, log = [q] ∧ q.predicate = p ∧ q.argument = v
  /-- Nothing is asked for a literal, and if the kind of the value or its truth decides. -/
  unasked : Fits d v ∨ Misfits d v ∨ (∃ l, d.demand = .literal l) ∨ d.demand = .nullish → log = []
  /-- Nothing is asked if a declared key is missing. -/
  missing : d.demand = .shape →
    (∃ entry ∈ d.listing.members, entry.1.isWildcard = false ∧ v.hasKey entry.1 = .ok false) →
      log = []
  /-- An undeclared key ends a strict pass, without a query. -/
  undeclared (first : List Item) (shape : Value) (before after : List (Value × Value))
    (entry : Value × Value) (answer : Except Fault Outcome) (w' : World σ) :
    StrictPass d v first shape → v.listing.members = before ++ entry :: after →
      shape.Leaves entry.1 → (check host d v).startedIn w = (answer, w') →
        Traced host (.inTurn (first ++ before.map (Item.member shape true) ++
          [.verdict (.ok (some (.illegalExtraKey entry.1)))])) w log answer w'
  /-- A query that fails at any depth is the last that is done. -/
  fails (q : Query σ) (fault : Fault) : Makes host d v w q → q.answer = .error fault →
    (check host d v).startedIn w = (.error fault, q.after)

theorem Traced.of_plan (h : Traced host (.check d v) w log answer w') :
    Traced host (plan d v) w log answer w' := by
  cases h with
  | check hplan => exact hplan

/-- A query to a predicate of the caller is recorded as one call. -/
theorem Linked.calls_of_function {mark : Nat} {name : Option String}
    {attrs : List (String × Value)} (h : Linked host w log failure w') (hq : q ∈ log)
    (hcallee : callee q.predicate = .function mark name attrs none) :
    q.calls = [⟨name, q.argument⟩] := by
  have hcall := h.genuine hq
  simp only [call, invoke, hcallee] at hcall
  have hafter : q.after.calls = q.before.calls ++ [⟨name, q.argument⟩] :=
    (congrArg (·.2.calls) hcall).symm
  rw [Query.calls, hafter, List.drop_left]

theorem Traced.asks (h : Traced host (.check d v) w log answer w') (hasks : Asks d v p) :
    ∃ q, log = [q] ∧ q.predicate = p ∧ q.argument = v := by
  have hplan := h.of_plan
  rw [plan_of_asks hasks] at hplan
  cases hplan with
  | ask => exact ⟨_, rfl, rfl, rfl⟩

theorem Traced.unasked (h : Traced host (.check d v) w log answer w')
    (hkind : Fits d v ∨ Misfits d v ∨ (∃ l, d.demand = .literal l) ∨ d.demand = .nullish) :
    log = [] := by
  obtain ⟨items, hitems, hverdicts⟩ := exists_plan_verdict hkind
  have hplan := h.of_plan
  rw [hitems, ← List.append_nil items] at hplan
  exact hplan.log_eq_nil hverdicts (.inl rfl)

theorem Traced.missing (h : Traced host (.check d v) w log answer w')
    (hdemand : d.demand = .shape)
    (hkey : ∃ entry ∈ d.listing.members, entry.1.isWildcard = false ∧
      v.hasKey entry.1 = .ok false) : log = [] := by
  cases hvalue : v.isPrimitive with
  | true => exact h.unasked (.inr (.inl (.shape hdemand hvalue)))
  | false =>
      have hplan := h.of_plan
      rw [plan_of_strictPass (.shape hdemand hvalue)] at hplan
      refine hplan.log_eq_nil (fun _ => exists_verdict_of_mem_required) (.inr ?_)
      obtain ⟨entry, hentry, hwildcard, hmissing⟩ := hkey
      refine ⟨.ok (some (.requiredKeyMissing entry.1)), mismatch_ne_pass _, ?_⟩
      refine Item.mem_listed.mpr (.inl ⟨entry, hentry, ?_⟩)
      rw [Item.declared, hwildcard, hmissing]
      rfl

theorem Traced.undeclared {first : List Item} {shape : Value} {before after : List (Value × Value)}
    {entry : Value × Value} (h : Traced host (.check d v) w log answer w')
    (hstrict : StrictPass d v first shape)
    (hmembers : v.listing.members = before ++ entry :: after) (hleaves : shape.Leaves entry.1) :
    Traced host (.inTurn (first ++ before.map (Item.member shape true) ++
      [.verdict (.ok (some (.illegalExtraKey entry.1)))])) w log answer w' := by
  have hplan := h.of_plan
  rw [plan_of_strictPass hstrict, Item.members, Item.listed, hmembers, List.map_append,
    List.map_cons, Item.member_of_leaves hleaves, List.append_assoc, List.cons_append,
    ← List.append_assoc] at hplan
  exact hplan.cut (mismatch_ne_pass _)

/-- A check makes its queries in the documented order: it has exactly one log. -/
theorem exists_query_log (host : Host σ) (d v : Value) (w : World σ) :
    ∃ log, IsLog host d v w log := by
  obtain ⟨log, answer, w', htraced⟩ := traceable_check host d v w
  have hrun : (check host d v).startedIn w = (answer, w') := htraced.run_eq
  obtain ⟨failure, hlinked, hfailure⟩ := htraced.linked
  refine ⟨log, ?_⟩
  constructor
  case traced =>
    intro log' answer' w''
    constructor
    · intro htraced'
      exact ⟨htraced'.log_unique htraced, htraced'.run_eq⟩
    · rintro ⟨rfl, hrun'⟩
      obtain ⟨rfl, rfl⟩ := Prod.mk.inj (hrun.symm.trans hrun')
      exact htraced
  case linked =>
    rw [hrun]
    exact ⟨failure, hlinked, hfailure⟩
  case recorded =>
    rw [hrun]
    exact hlinked.calls_eq
  case recorded_one =>
    intro q hq mark name attrs hcallee
    exact hlinked.calls_of_function hq hcallee
  case asks => exact fun p => htraced.asks
  case unasked => exact htraced.unasked
  case missing => exact htraced.missing
  case undeclared =>
    intro first shape before after entry answer' w'' hstrict hmembers hleaves hrun'
    obtain ⟨rfl, rfl⟩ := Prod.mk.inj (hrun.symm.trans hrun')
    exact htraced.undeclared hstrict hmembers hleaves
  case fails => exact fun q fault => Makes.fails

end ShapeCheck.Check
