import ShapeCheck.Proofs.Verdicts

/-!
# What a mismatch tells

`Explains` tells, for every kind of mismatch, what is the case when a check of a value
against a schema ends in it: which part is the first that does not conform, that all parts
before it do, and that the mismatch inside is that of this part, for which the same holds
in turn.  Everything it asks for can be checked again by other checks.

Main statement: with pure predicates, which may fail, every mismatch that a check ends in
explains why the value is rejected (`mismatch_explains`).
-/

namespace ShapeCheck.Check

open Run

variable {σ : Type}

/-- A mismatch tells why a value does not conform to a schema, down to its leaves. -/
inductive Explains (host : Host σ) (W : World σ → Prop) : Value → Value → Problem → Prop
  | kind {d v : Value} (hmisfits : Misfits d v) : Explains host W d v (.incorrectType d v)
  | literal {d : Value} {l a : Atom} {mark : Nat} (hdemand : d.demand = .literal l)
      (hdiffers : a.matchesLiteral l = .ok false) :
      Explains host W d (.atom mark a) (.incorrectValue d (.atom mark a))
  | answer {d v p answer : Value} (hasks : Asks d v p)
      (hcall : Settles W (call host p v) (.ok answer)) (hrefused : answer.isTrue = false) :
      Explains host W d v (.checkerFailed answer.asText?)
  | element {d schema item : Value} {mark : Nat} {kind : SequenceKind}
      {before after : List Value} {inner : Problem} (hdemand : d.demand = .array schema)
      (hbefore : ∀ earlier ∈ before, Accepts host W schema earlier)
      (hrejects : Rejects host W schema item inner)
      (hinner : Explains host W schema item inner) :
      Explains host W d (.sequence mark kind (before ++ item :: after))
        (.arrayError inner before.length)
  | value {d v schema : Value} {entry : Value × Value} {before after : List (Value × Value)}
      {inner : Problem} (hdemand : d.demand = .record schema) (hvalue : v.isObject = true)
      (hmembers : v.listing.members = before ++ entry :: after)
      (hbefore : ∀ earlier ∈ before, Accepts host W schema earlier.2)
      (hrejects : Rejects host W schema entry.2 inner)
      (hinner : Explains host W schema entry.2 inner) :
      Explains host W d v (.recordError inner entry.1)
  /-- In an exact shape no declared key is missing and no earlier key is undeclared. -/
  | member {d v declared shape schema told : Value} {entry : Value × Value}
      {before after : List (Value × Value)} {inner : Problem}
      (hkeyed : Keyed d v declared shape)
      (hmembers : v.listing.members = before ++ entry :: after)
      (hbefore : ∀ earlier ∈ before, MemberAccepted host W shape earlier)
      (hexact : d.demand = .shape →
        HasDeclared v declared ∧ ∀ earlier ∈ before, HasSchema shape earlier.1)
      (htold : ToldAs shape entry.1 schema told)
      (hrejects : Rejects host W schema entry.2 inner)
      (hinner : Explains host W schema entry.2 inner) :
      Explains host W d v (.objectError inner told)
  /-- Where keys may be optional, what the value holds under declared keys conforms. -/
  | missing {d v declared shape : Value} {entry : Value × Value}
      {before after : List (Value × Value)} (hkeyed : Keyed d v declared shape)
      (hdeclared : declared.listing.members = before ++ entry :: after)
      (hbefore : ∀ earlier ∈ before,
        earlier.1.isWildcard = false → v.hasKey earlier.1 = .ok true)
      (hwildcard : entry.1.isWildcard = false) (hmissing : v.hasKey entry.1 = .ok false)
      (hoptional : d.demand ≠ .shape →
        ∀ member ∈ v.listing.members, MemberAccepted host W shape member) :
      Explains host W d v (.requiredKeyMissing entry.1)
  | extra {d v declared shape : Value} {entry : Value × Value}
      {before after : List (Value × Value)} (hkeyed : Keyed d v declared shape)
      (hmembers : v.listing.members = before ++ entry :: after)
      (hbefore : ∀ earlier ∈ before,
        HasSchema shape earlier.1 ∧ MemberAccepted host W shape earlier)
      (hextra : shape.Leaves entry.1) (hdeclared : HasDeclared v declared)
      (hoptional : d.demand ≠ .shape →
        ∀ member ∈ v.listing.members, MemberAccepted host W shape member) :
      Explains host W d v (.illegalExtraKey entry.1)
  | alternatives {d v : Value} {schemas : List Value} {errors : List Problem}
      (hdemand : d.demand = .union schemas)
      (hrejects : List.Forall₂ (fun schema error => Rejects host W schema v error) schemas errors)
      (hinner : ∀ pair ∈ schemas.zip errors, Explains host W pair.1 v pair.2) :
      Explains host W d v (.unionNoMatch errors)

variable {host : Host σ} {W : World σ → Prop} {d v declared shape : Value} {strict : Bool}
  {w w' : World σ} {problem : Problem}

/-- A pass over members that ends in a mismatch explains it, by what was tested before. -/
theorem explains_of_members (hkeyed : Keyed d v declared shape)
    (hsettled : MembersSettled host W shape v) (hw : W w)
    (hpass : (members (check host) shape v strict).startedIn w = (.ok (some problem), w'))
    (hexact : d.demand = .shape → strict = true)
    (hstrict : strict = true → HasDeclared v declared ∧
      (d.demand ≠ .shape → ∀ member ∈ v.listing.members, MemberAccepted host W shape member))
    (hinner : ∀ entry ∈ v.listing.members, ∀ schema inner, shape.Assigns entry.1 schema →
      Rejects host W schema entry.2 inner → Explains host W schema entry.2 inner) :
    Explains host W d v problem := by
  obtain ⟨before, entry, after, hmembers, hbefore, hrejected⟩ :=
    members_mismatch hsettled hw hpass
  have hentry : entry ∈ v.listing.members := by simp [hmembers]
  cases hrejected with
  | item htold hrejects =>
      refine .member hkeyed hmembers (fun earlier h => (hbefore earlier h).1) ?_ htold hrejects
        (hinner entry hentry _ _ htold.assigns hrejects)
      intro hshape
      have htrue := hexact hshape
      exact ⟨(hstrict htrue).1, fun earlier h => (hbefore earlier h).2 htrue⟩
  | extra hkey htrue =>
      obtain ⟨hdeclared, hoptional⟩ := hstrict htrue
      refine .extra hkeyed hmembers ?_ hkey hdeclared hoptional
      intro earlier hearlier
      exact ⟨(hbefore earlier hearlier).2 htrue, (hbefore earlier hearlier).1⟩

/-- A missing key is explained by the keys that are asked for before it. -/
theorem explains_of_required (hkeyed : Keyed d v declared shape)
    (hrequired : (required declared v).startedIn w = (.ok (some problem), w'))
    (hoptional : d.demand ≠ .shape →
      ∀ member ∈ v.listing.members, MemberAccepted host W shape member) :
    Explains host W d v problem := by
  obtain ⟨before, entry, after, hdeclared, hbefore, hwildcard, hmissing, rfl⟩ :=
    required_mismatch hrequired
  exact .missing hkeyed hdeclared hbefore hwildcard hmissing hoptional

/-- Every mismatch that a check ends in explains why the value is rejected. -/
theorem mismatch_explains (hpure : Pure host W d v) (hw : W w)
    (hrun : (check host d v).startedIn w = (.ok (some problem), w')) :
    Explains host W d v problem := by
  induction d, v using Next.induction generalizing w w' problem with
  | step d v ih =>
      have hnext {schema item : Value} {inner : Problem} (h : Next (d, v) (schema, item))
          (hrejects : Rejects host W schema item inner) :
          Explains host W schema item inner := by
        obtain ⟨w₁, -, hitem⟩ := hrejects w hw
        exact ih schema item h (hpure.next h) hw hitem
      have hcourse := check_course host d v
      generalize check host d v = run at hcourse hrun
      cases hcourse with
      | fits | undecided => simp at hrun
      | misfits hmisfits =>
          obtain rfl := Option.some.inj (Except.ok.inj (congrArg Prod.fst hrun))
          exact .kind hmisfits
      | asks hasks =>
          obtain ⟨answer, hcall, hanswer⟩ := bind_pure_eq_ok_iff.mp hrun
          have hsettles := ((hpure.settled_call hasks).settles hw hcall).1
          obtain ⟨hrefused, rfl⟩ := ofAnswer_eq_some_iff.mp hanswer
          exact .answer hasks hsettles hrefused
      | literal hdemand =>
          obtain ⟨matched, hmatched, hanswer⟩ := bind_pure_eq_ok_iff.mp hrun
          obtain ⟨rfl, rfl⟩ := ofBool_eq_some_iff.mp hanswer
          exact .literal hdemand (congrArg Prod.fst hmatched)
      | elements hdemand =>
          obtain ⟨before, item, after, inner, rfl, hbefore, hrejects, rfl⟩ := elements_mismatch
            (fun item hitem => check_settled (hpure.next (.element hdemand hitem))) hw hrun
          exact .element hdemand hbefore hrejects (hnext (.element hdemand (by simp)) hrejects)
      | values hdemand hvalue =>
          obtain ⟨before, entry, after, inner, hmembers, hbefore, hrejects, rfl⟩ :=
            values_mismatch
              (fun entry hentry => check_settled (hpure.next (.value hdemand hvalue hentry)))
              hw hrun
          have hentry : entry ∈ v.listing.members := by simp [hmembers]
          exact .value hdemand hvalue hmembers hbefore hrejects
            (hnext (.value hdemand hvalue hentry) hrejects)
      | alternatives hdemand =>
          obtain ⟨errors, rfl, hrejects⟩ := alternatives_mismatch
            (fun schema hschema => check_settled (hpure.next (.alternative hdemand hschema)))
            hw hrun
          refine .alternatives hdemand hrejects ?_
          intro pair hpair
          have hschema := (List.of_mem_zip hpair).1
          exact hnext (.alternative hdemand hschema) (List.forall₂_zip hrejects hpair)
      | shape hdemand hvalue =>
          have hkeyed : Keyed d v d d := .shape hdemand hvalue
          have hsettled := hkeyed.settled hpure
          rw [exactShape_eq_iff (mismatch_ne_pass problem)] at hrun
          rcases hrun with hrequired | ⟨w₁, hrequired, hstrict⟩
          · exact explains_of_required hkeyed hrequired fun hoptional => absurd hdemand hoptional
          · obtain ⟨hdeclared, rfl⟩ := required_pass hrequired
            exact explains_of_members hkeyed hsettled hw hstrict (fun _ => rfl)
              (fun _ => ⟨hdeclared, fun hoptional => absurd hdemand hoptional⟩)
              fun entry hentry schema inner hkey => hnext (.member hkeyed hentry hkey)
      | optional hdemand hvalue =>
          have hkeyed : Keyed d v (.dict _) (.dict _) := .optional hdemand hvalue
          have hsettled := hkeyed.settled hpure
          have hinner (entry : Value × Value) (hentry : entry ∈ v.listing.members)
              (schema : Value) (inner : Problem) (hkey : (Value.dict _).Assigns entry.1 schema) :
              Rejects host W schema entry.2 inner → Explains host W schema entry.2 inner :=
            hnext (.member hkeyed hentry hkey)
          have hnot : d.demand ≠ .shape := by simp [hdemand]
          rw [optionalObject_eq_iff (mismatch_ne_pass problem)] at hrun
          rcases hrun with hlax | ⟨w₁, hlax, hrequired | ⟨w₂, hrequired, hstrict⟩⟩
          · exact explains_of_members hkeyed hsettled hw hlax (fun h => absurd h hnot) nofun hinner
          · obtain ⟨haccepted, -, hw₁⟩ := members_pass hsettled hw hlax
            exact explains_of_required hkeyed hrequired fun _ => haccepted
          · -- Only an undeclared key is left to be told: the lax pass took all the others.
            obtain ⟨haccepted, -, hw₁⟩ := members_pass hsettled hw hlax
            obtain ⟨hdeclared, rfl⟩ := required_pass hrequired
            exact explains_of_members hkeyed hsettled hw₁ hstrict (fun _ => rfl)
              (fun _ => ⟨hdeclared, fun _ => haccepted⟩) hinner
      | unknown =>
          obtain ⟨shown, w₁, -, hthrow⟩ := bind_eq_ok_iff.mp hrun
          simp at hthrow

/-- Any number. -/
def numberSchema : Value := .tagged 0 .number (.family .number)

/-- A mapping that holds a sequence of numbers. -/
def numbersSchema : Value := .dict [(.text "a", .tagged 0 .array (.array numberSchema))]

/-- A text in place of the second number is told by the path that leads to it. -/
theorem mismatch_explains_numbers :
    Explains agreeable (fun w => w.cached = some .standard) numbersSchema
      (.dict [(.text "a", .list [.int 1, .text "x"])])
      (.objectError (.arrayError (.incorrectType numberSchema (.text "x")) 1) (.text "a")) :=
  mismatch_explains (w := calm) (agreeable_pure _ _) rfl rfl

end ShapeCheck.Check
