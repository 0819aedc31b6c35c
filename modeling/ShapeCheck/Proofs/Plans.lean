import ShapeCheck.Proofs.Parts

/-!
# The plan of a check

What a check sets out to do is fixed by the schema and the value, before any predicate is
asked.  It asks one predicate about the value itself, or goes through items in turn, or
tries alternatives in order.  Items are checks of parts and verdicts that need no check;
the answers of predicates decide only how far a plan is carried out.

Main statement: a check carries out its plan (`check_eq_plan`).
-/

namespace ShapeCheck.Check

open Run

/-- One of several things that are done in turn. -/
inductive Item where
  /-- A part of the value is checked.  A mismatch of it is told in a way that belongs to
  its place, and telling it may fail. -/
  | part (schema value : Value) (tell : Problem → Except Fault Problem)
  /-- Something is decided without a check. -/
  | verdict (answer : Except Fault Outcome)

/-- What a check, or the rest of one, has to do. -/
inductive Task where
  | check (d v : Value)
  | ask (p v : Value)
  /-- Goes through items up to the first that does not pass. -/
  | inTurn (items : List Item)
  /-- Tries alternatives up to the first that accepts, after others were rejected. -/
  | oneOf (v : Value) (rejected : List Problem) (schemas : List Value)

namespace Item

/-- The element of a sequence, given with its position. -/
def element (schema : Value) (entry : Value × Nat) : Item :=
  .part schema entry.1 fun problem => .ok (.arrayError problem entry.2)

/-- The member of an object, whatever its key is. -/
def value (schema : Value) (entry : Value × Value) : Item :=
  .part schema entry.2 fun problem => .ok (.recordError problem entry.1)

/-- A part whose schema had to be looked up. -/
def under (found : Except Fault Value) (v : Value) (tell : Problem → Except Fault Problem) :
    Item :=
  match found with
  | .ok schema => .part schema v tell
  | .error fault => .verdict (.error fault)

/-- The member of a value that is tested against a shape.  A key that the shape neither has
nor covers asks for no check. -/
def member (shape : Value) (strict : Bool) (entry : Value × Value) : Item :=
  match shape.hasKey entry.1, shape.hasKey .wildcard with
  | .ok true, _ =>
    .under (shape.get entry.1) entry.2 fun problem => .ok (.objectError problem entry.1)
  | .ok false, .ok true =>
    .under (shape.get .wildcard) entry.2 fun problem =>
      (coveredKey entry.1).map (.objectError problem)
  | .ok false, .ok false =>
    .verdict (.ok (if strict then some (.illegalExtraKey entry.1) else none))
  | .error fault, _ | .ok false, .error fault => .verdict (.error fault)

/-- A declared key that the value is asked for. -/
def declared (v : Value) (entry : Value × Value) : Item :=
  .verdict (if entry.1.isWildcard then .ok none
    else (v.hasKey entry.1).map (.ofBool · (.requiredKeyMissing entry.1)))

/-- An item for every member of a listing, and one for the fault that ends it. -/
def listed (listing : Listing) (item : Value × Value → Item) : List Item :=
  listing.members.map item ++ (listing.fault.map fun fault => .verdict (.error fault)).toList

/-- What every member of a value has to pass. -/
def members (shape v : Value) (strict : Bool) : List Item :=
  listed v.listing (member shape strict)

/-- What every declared key of a shape has to pass. -/
def required (shape v : Value) : List Item := listed shape.listing (declared v)

end Item

/-- What a check of a value against a schema sets out to do. -/
def plan (d v : Value) : Task :=
  let refused : Task := .inTurn [.verdict (.ok (some (.incorrectType d v)))]
  match d.demand with
  | .anything => .inTurn []
  | .test accepts => .inTurn [.verdict (.ok (.ofBool (accepts v) (.incorrectType d v)))]
  | .nullish => .inTurn [.verdict (v.truth.map fun b => .ofBool (!b) (.incorrectType d v))]
  | .checker f p => if f.accepts v then .ask p v else refused
  | .array schema =>
    match v with
    | .sequence _ _ items => .inTurn (items.zipIdx.map (Item.element schema))
    | _ => refused
  | .record schema =>
    if v.isObject then .inTurn (Item.listed v.listing (Item.value schema)) else refused
  | .optional own others =>
    if v.isObject then
      .inTurn (Item.members (.dict others) v false ++ Item.required (.dict own) v ++
        Item.members (.dict others) v true)
    else refused
  | .union schemas => .oneOf v [] schemas
  | .unknown tag =>
    .inTurn [.verdict ((Value.ofTag tag).shown >>= fun shown => .error (.unknownTag shown))]
  | .predicate => .ask d v
  | .literal l =>
    match v with
    | .atom _ a =>
      .inTurn [.verdict ((a.matchesLiteral l).map (.ofBool · (.incorrectValue d v)))]
    | _ => refused
  | .shape =>
    if v.isPrimitive then refused
    else .inTurn (Item.required d v ++ Item.members d v true)

variable {σ : Type}

/-- Carries out an item. -/
def Item.run (host : Host σ) : Item → Run σ Outcome
  | .part schema v tell => do
    match ← ShapeCheck.check host schema v with
    | none => return none
    | some problem => return some (← lift (tell problem))
  | .verdict answer => lift answer

/-- Carries out a task. -/
def Task.run (host : Host σ) : Task → Run σ Outcome
  | .check d v => ShapeCheck.check host d v
  | .ask p v => do return .ofAnswer (← call host p v)
  | .inTurn items => firstMismatch (Item.run host) items
  | .oneOf v rejected schemas => do
    let problems ← rejections (ShapeCheck.check host · v) schemas
    return problems.map fun more => .unionNoMatch (rejected ++ more)

/-! ## Items in turn -/

section

variable {α β : Type} {test : α → Run σ Outcome} {host : Host σ}

theorem firstMismatch_map (f : β → α) (items : List β) :
    firstMismatch test (items.map f) = firstMismatch (fun item => test (f item)) items := by
  induction items with
  | nil => rfl
  | cons head tail ih => rw [List.map_cons, firstMismatch, firstMismatch, ih]

theorem firstMismatch_append (items more : List α) :
    firstMismatch test (items ++ more) =
      firstMismatch test items >>= fun outcome =>
        match outcome with
        | some problem => pure (some problem)
        | none => firstMismatch test more := by
  induction items with
  | nil => rfl
  | cons head tail ih =>
      rw [List.cons_append, firstMismatch, firstMismatch, ih, bind_assoc]
      congr 1
      funext outcome
      cases outcome <;> rfl

theorem firstMismatch_verdict (answer : Except Fault Outcome) :
    firstMismatch (Item.run host) [.verdict answer] = lift answer := by
  rcases answer with fault | _ | problem <;> rfl

/-- Going through the items of a listing is going through its members. -/
theorem firstMismatch_listed {listing : Listing} {test : Value × Value → Run σ Outcome}
    {item : Value × Value → Item} (hitem : ∀ entry, test entry = (item entry).run host) :
    firstMismatch (Item.run host) (Item.listed listing item) = eachMember listing test := by
  obtain rfl : test = fun entry => (item entry).run host := funext hitem
  rw [Item.listed, firstMismatch_append, firstMismatch_map, eachMember]
  congr 1
  funext outcome
  rcases outcome with _ | problem
  · cases listing.fault with
    | none => rfl
    | some fault => exact firstMismatch_verdict _
  · rfl

end

/-! ## Items of a check -/

section

variable {host : Host σ} {shape schema key : Value} {strict : Bool}

theorem run_part_of_ok (schema v : Value) (tell : Problem → Problem) :
    (Item.part schema v fun problem => .ok (tell problem)).run host =
      check host schema v >>= fun outcome => pure (outcome.map tell) := by
  rw [Item.run]
  congr 1
  funext outcome
  cases outcome <;> rfl

theorem Item.member_of_holds (hkey : shape.Holds key schema) (item : Value) :
    Item.member shape strict (key, item) =
      .part schema item fun problem => .ok (.objectError problem key) := by
  simp only [Item.member, hkey.1, hkey.2, Item.under]

theorem Item.member_of_covers (hkey : shape.Covers key schema) (item : Value) :
    Item.member shape strict (key, item) =
      .part schema item fun problem => (coveredKey key).map (.objectError problem) := by
  simp only [Item.member, hkey.1, hkey.2.1, hkey.2.2, Item.under]

theorem Item.member_of_leaves (hkey : shape.Leaves key) (item : Value) :
    Item.member shape strict (key, item) =
      .verdict (.ok (if strict then some (.illegalExtraKey key) else none)) := by
  simp only [Item.member, hkey.1, hkey.2]

theorem Item.member_of_error {fault : Fault} (hkey : shape.hasKey key = .error fault)
    (item : Value) : Item.member shape strict (key, item) = .verdict (.error fault) := by
  simp only [Item.member, hkey]

theorem run_member (entry : Value × Value) :
    member (check host) shape strict entry = (Item.member shape strict entry).run host := by
  obtain ⟨key, item⟩ := entry
  rcases shape.key_cases key with ⟨schema, hkey⟩ | ⟨schema, hkey⟩ | hkey | ⟨fault, hkey⟩
  · rw [member_of_holds hkey, Item.member_of_holds hkey, run_part_of_ok]
  · rw [member_of_covers hkey, Item.member_of_covers hkey, Item.run]
    congr 1
    funext outcome
    cases outcome with
    | none => rfl
    | some problem => cases coveredKey key <;> rfl
  · rw [member_of_leaves hkey, Item.member_of_leaves hkey]
    rfl
  · rw [member_of_error hkey, Item.member_of_error hkey]
    rfl

theorem run_declared (v : Value) (entry : Value × Value) :
    present v entry = (Item.declared v entry).run host := by
  cases hentry : entry.1.isWildcard with
  | true =>
      rw [present_of_wildcard hentry, Item.declared, if_pos hentry]
      rfl
  | false =>
      rw [present_of_ne_wildcard hentry, Item.declared, hentry]
      cases v.hasKey entry.1 <;> rfl

theorem run_members (shape v : Value) (strict : Bool) :
    firstMismatch (Item.run host) (Item.members shape v strict) =
      members (check host) shape v strict :=
  firstMismatch_listed run_member

theorem run_required (shape v : Value) :
    firstMismatch (Item.run host) (Item.required shape v) = required shape v :=
  firstMismatch_listed (run_declared v)

end

/-! ## Plans -/

/-- A check carries out its plan. -/
theorem check_eq_plan (host : Host σ) (d v : Value) :
    check host d v = (plan d v).run host := by
  rw [check_eq_meet, plan]
  cases d.demand with
  | anything => rfl
  | test accepts => exact (firstMismatch_verdict _).symm
  | nullish =>
      refine Eq.trans ?_ (firstMismatch_verdict _).symm
      simp only [meet]
      cases v.truth <;> rfl
  | checker f p =>
      simp only [meet]
      split
      · rfl
      · exact (firstMismatch_verdict _).symm
  | array schema =>
      cases v with
      | sequence mark kind items =>
          simp only [meet, Task.run, elements, firstMismatch_map]
          congr 1
          funext entry
          exact (run_part_of_ok _ _ _).symm
      | _ => exact (firstMismatch_verdict _).symm
  | record schema =>
      simp only [meet]
      split
      · exact (firstMismatch_listed fun entry => (run_part_of_ok _ _ _).symm).symm
      · exact (firstMismatch_verdict _).symm
  | optional own others =>
      simp only [meet]
      split
      · simp only [Task.run, List.append_assoc, firstMismatch_append, run_members, run_required]
        rfl
      · exact (firstMismatch_verdict _).symm
  | union schemas => rfl
  | unknown tag =>
      exact (firstMismatch_verdict _).symm
  | predicate => rfl
  | literal l =>
      cases v with
      | atom mark a =>
          refine Eq.trans ?_ (firstMismatch_verdict _).symm
          simp only [meet, literal]
          cases a.matchesLiteral l <;> rfl
      | _ => exact (firstMismatch_verdict _).symm
  | shape =>
      simp only [meet]
      split
      · exact (firstMismatch_verdict _).symm
      · simp only [Task.run, firstMismatch_append, run_members, run_required]
        rfl

end ShapeCheck.Check
