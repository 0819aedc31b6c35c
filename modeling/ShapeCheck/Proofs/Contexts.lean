import ShapeCheck.Proofs.Guards

/-!
# Schemas in context

A context is a schema with one place left open, at any depth.  Whatever agrees in the open
place agrees in the whole schema, and so a guard may stand for its schema anywhere
(`context_congruence`).

To accept the same values is not enough for this: of two schemas that accept nothing, one
may fail where the other rejects, and a union tells them apart.
-/

namespace ShapeCheck.Check

open Run

variable {σ : Type} {host : Host σ} {W : World σ → Prop} {d d' key : Value}

/-- A schema with one place left open. -/
inductive Context where
  | hole
  | arrayOf (mark : Nat) (C : Context)
  | recordOf (mark : Nat) (C : Context)
  | unionOf (mark : Nat) (before : List Value) (C : Context) (after : List Value)
  /-- The place is that of a required key. -/
  | required (mark : Nat) (before : List (Value × Value)) (key : Value) (C : Context)
      (after optional : List (Value × Value))
  /-- The place is that of an optional key. -/
  | optional (mark : Nat) (required before : List (Value × Value)) (key : Value) (C : Context)
      (after : List (Value × Value))
  | mapping (mark : Nat) (kind : MappingKind) (before : List (Value × Value)) (key : Value)
      (C : Context) (after : List (Value × Value))
  | sequence (mark : Nat) (kind : SequenceKind) (before : List Value) (C : Context)
      (after : List Value)

namespace Context

/-- The schema with the open place filled. -/
def fill (d : Value) : Context → Value
  | hole => d
  | arrayOf mark C => (Schema.arrayOf (C.fill d)).withMark mark
  | recordOf mark C => (Schema.recordOf (C.fill d)).withMark mark
  | unionOf mark before C after => (Schema.unionOf (before ++ C.fill d :: after)).withMark mark
  | required mark before key C after others =>
    (Schema.optionalOf (before ++ (key, C.fill d) :: after) others).withMark mark
  | optional mark own before key C after =>
    (Schema.optionalOf own (before ++ (key, C.fill d) :: after)).withMark mark
  | mapping mark kind before key C after =>
    .mapping mark kind (before ++ (key, C.fill d) :: after)
  | sequence mark kind before C after => .sequence mark kind (before ++ C.fill d :: after)

/-- The schemas beside the open place, at all depths. -/
def elsewhere : Context → List Value
  | hole => []
  | arrayOf _ C | recordOf _ C => C.elsewhere
  | unionOf _ before C after | sequence _ _ before C after => before ++ after ++ C.elsewhere
  | required _ before _ C after others => (before ++ after ++ others).map Prod.snd ++ C.elsewhere
  | optional _ own before _ C after => (own ++ before ++ after).map Prod.snd ++ C.elsewhere
  | mapping _ _ before _ C after => (before ++ after).map Prod.snd ++ C.elsewhere

end Context

theorem agree_around {before after : List Value} (h : Agree host W d d')
    (hbefore : ∀ e ∈ before, Steady host W e) (hafter : ∀ e ∈ after, Steady host W e) :
    List.Forall₂ (Agree host W) (before ++ d :: after) (before ++ d' :: after) := by
  apply List.rel_append
  · exact List.forall₂_same.mpr fun e he => (hbefore e he).agree
  · exact .cons h (List.forall₂_same.mpr fun e he => (hafter e he).agree)

theorem aligned_self {entries : List (Value × Value)} (h : ∀ e ∈ entries, Steady host W e.2) :
    Aligned host W entries entries :=
  List.forall₂_same.mpr fun e he => ⟨rfl, (h e he).agree⟩

theorem aligned_around {before after : List (Value × Value)} (h : Agree host W d d')
    (hbefore : ∀ e ∈ before, Steady host W e.2) (hafter : ∀ e ∈ after, Steady host W e.2) :
    Aligned host W (before ++ (key, d) :: after) (before ++ (key, d') :: after) := by
  apply List.rel_append
  · exact aligned_self hbefore
  · exact .cons ⟨rfl, h⟩ (aligned_self hafter)

theorem fill_agree (C : Context) (helsewhere : ∀ e ∈ C.elsewhere, Steady host W e)
    (h : Agree host W d d') : Agree host W (C.fill d) (C.fill d') := by
  induction C with
  | hole => exact h
  | arrayOf mark C ih => exact (ih helsewhere).array rfl rfl
  | recordOf mark C ih => exact (ih helsewhere).record rfl rfl
  | unionOf mark before C after ih =>
      simp only [Context.elsewhere, List.forall_mem_append] at helsewhere
      obtain ⟨⟨hbefore, hafter⟩, hinner⟩ := helsewhere
      exact .union (agree_around (ih hinner) hbefore hafter) rfl rfl
  | required mark before key C after others ih =>
      simp only [Context.elsewhere, List.map_append, List.forall_mem_append,
        List.forall_mem_map] at helsewhere
      obtain ⟨⟨⟨hbefore, hafter⟩, hothers⟩, hinner⟩ := helsewhere
      exact (aligned_around (ih hinner) hbefore hafter).optionalOf (aligned_self hothers) mark
  | optional mark own before key C after ih =>
      simp only [Context.elsewhere, List.map_append, List.forall_mem_append,
        List.forall_mem_map] at helsewhere
      obtain ⟨⟨⟨hown, hbefore⟩, hafter⟩, hinner⟩ := helsewhere
      exact (aligned_self hown).optionalOf (aligned_around (ih hinner) hbefore hafter) mark
  | mapping mark kind before key C after ih =>
      simp only [Context.elsewhere, List.map_append, List.forall_mem_append,
        List.forall_mem_map] at helsewhere
      obtain ⟨⟨hbefore, hafter⟩, hinner⟩ := helsewhere
      exact .shape (aligned_around (ih hinner) hbefore hafter).matching rfl rfl
  | sequence mark kind before C after ih =>
      simp only [Context.elsewhere, List.forall_mem_append] at helsewhere
      obtain ⟨⟨hbefore, hafter⟩, hinner⟩ := helsewhere
      exact .shape (matching_sequence (agree_around (ih hinner) hbefore hafter)) rfl rfl

/-- Schemas that agree do so in every context, and once the settings load, a guard agrees
with its schema in every context. -/
theorem context_congruence (host : Host σ) (C : Context) :
    (∀ W, (∀ e ∈ C.elsewhere, Steady host W e) → ∀ d d', Agree host W d d' →
      Agree host W (C.fill d) (C.fill d')) ∧
    ((∀ e ∈ C.elsewhere, Steady host Loads e) → ∀ d, Steady host Loads d → ∀ mark name,
      Agree host Loads (C.fill (.guard mark name d)) (C.fill d)) := by
  constructor
  · intro W helsewhere d d' hagree
    exact fill_agree C helsewhere hagree
  · intro helsewhere d hsteady mark name
    exact fill_agree C helsewhere (guard_agree hsteady mark name)

theorem anything_steady (W : World Unit → Prop) : Steady agreeable W Schema.anything := by
  intro v
  rw [check_of_fits agreeable (.anything rfl)]
  exact ⟨_, settles_pure none⟩

theorem union_anything_agree (W : World Unit → Prop) :
    Agree agreeable W (Schema.unionOf [Schema.anything]) Schema.anything := by
  apply agree_iff.mpr
  intro v
  rw [check_of_union rfl, check_of_fits agreeable (.anything rfl)]
  exact .passed (fun w hw => ⟨w, hw, rfl⟩) (settles_pure none)

/-- Arrays of anything, with the schema of the elements inside a union or behind a guard. -/
theorem context_congruence_array :
    Agree agreeable Loads (Schema.arrayOf (Schema.unionOf [Schema.anything]))
        (Schema.arrayOf Schema.anything) ∧
      Agree agreeable Loads (Schema.arrayOf (.guard 0 "g" Schema.anything))
        (Schema.arrayOf Schema.anything) :=
  ⟨(context_congruence agreeable (.arrayOf 0 .hole)).1 Loads nofun _ _ (union_anything_agree _),
    (context_congruence agreeable (.arrayOf 0 .hole)).2 nofun _ (anything_steady _) 0 "g"⟩

/-- A caller with one predicate that accepts nothing and others that fail. -/
def refusing : Host Unit where
  predicate mark _ state :=
    if mark = 1 then (.ok (.bool false), state)
    else (.error (.raised "ValueError" "boom"), state)
  operation _ _ _ := .ok (.bool false)

/-- The predicate that accepts nothing. -/
def refuser : Value := .function 1 (some "refuser") [] none

/-- A predicate that fails. -/
def raiser : Value := .function 2 (some "raiser") [] none

theorem refuser_rejects (v : Value) :
    Rejects refusing (fun _ => True) refuser v (.checkerFailed none) :=
  fun _ _ => ⟨_, trivial, rfl⟩

theorem raiser_fails (v : Value) :
    Settles (fun _ => True) (check refusing raiser v) (.error (.raised "ValueError" "boom")) :=
  fun _ _ => ⟨_, trivial, rfl⟩

/-- A schema or else anything. -/
def orAnything : Context := .unionOf 0 [] .hole [Schema.anything]

/-- Two predicates accept the same values, namely none, and yet a union with one of them
accepts a value on which the union with the other one fails. -/
theorem equivalent_told_apart :
    (∀ v, Accepts refusing (fun _ => True) refuser v ↔
        Accepts refusing (fun _ => True) raiser v) ∧
      Steady refusing (fun _ => True) refuser ∧ Steady refusing (fun _ => True) raiser ∧
      (∀ e ∈ orAnything.elsewhere, Steady refusing (fun _ => True) e) ∧
      Accepts refusing (fun _ => True) (orAnything.fill refuser) (.int 1) ∧
      ¬ Accepts refusing (fun _ => True) (orAnything.fill raiser) (.int 1) := by
  refine ⟨?_, fun v => ⟨_, refuser_rejects v⟩, fun v => ⟨_, raiser_fails v⟩, ?_, ?_, ?_⟩
  · intro v
    constructor
    · intro h
      exact absurd (refuser_rejects v) (h.not_rejects (w := calm) trivial _)
    · intro h
      exact absurd (h.unique (w := calm) trivial (raiser_fails v)) nofun
  · intro e he v
    obtain rfl := List.mem_singleton.mp he
    exact ⟨.ok none, fun w _ => ⟨w, trivial, rfl⟩⟩
  · exact fun _ _ => ⟨_, trivial, rfl⟩
  · intro h
    have hfails : Settles (fun _ => True) (check refusing (orAnything.fill raiser) (.int 1))
        (.error (.raised "ValueError" "boom")) := fun _ _ => ⟨_, trivial, rfl⟩
    exact absurd (h.unique (w := calm) trivial hfails) nofun

end ShapeCheck.Check
