import ShapeCheck.Proofs.JsonReading
import ShapeCheck.Proofs.Wordings

/-!
# Trees as JSON text

The tree of a mismatch is data where the mismatch mentions nothing but data: values, literals
and keys that JSON has a notation for, and schemas that are made of these.  Then the text of
the tree is JSON text, in every layout, and the tree is read back from it.  Predicates may be
anything that can be called, for the tree only tells their names.

Main statement: the tree of a mismatch is read back from its text, and a mismatch without a
tree mentions a predicate without a name (`Mismatch.read_json`).
-/

namespace ShapeCheck

namespace Value

/-- A key of a shape that is laid out as a text. -/
inductive ShapeKey : Value → Prop
  | text (mark : Nat) (s : String) : ShapeKey (atom mark (.text s false))
  | wildcard (mark : Nat) : ShapeKey (atom mark (.symbol .wildcard))

/-- Schemas that are made of tags, predicates, shapes and literals that are data. -/
inductive Legible : Value → Prop
  | literal {mark : Nat} {a : Atom} (h : Data (atom mark a)) : Legible (atom mark a)
  | simple (mark : Nat) (tag : Tag) {form : Form Value} (h : form.isSimple = true) :
      Legible (tagged mark tag form)
  | predicate {f : Value} (hcallable : f.isCallable = true) (htagged : f.isTagged = false) :
      Legible f
  | array (mark : Nat) (tag : Tag) {element : Value} (h : Legible element) :
      Legible (tagged mark tag (.array element))
  | record (mark : Nat) (tag : Tag) {value : Value} (h : Legible value) :
      Legible (tagged mark tag (.record value))
  | optional (mark : Nat) (tag : Tag) {required optional : List (Value × Value)}
      (hkeys : ∀ e ∈ required, ShapeKey e.1) (hkeys' : ∀ e ∈ optional, ShapeKey e.1)
      (h : ∀ e ∈ required, Legible e.2) (h' : ∀ e ∈ optional, Legible e.2) :
      Legible (tagged mark tag (.optional required optional))
  | union (mark : Nat) (tag : Tag) {alternatives : List Value}
      (h : ∀ d ∈ alternatives, Legible d) : Legible (tagged mark tag (.union alternatives))
  | shape (mark : Nat) (kind : MappingKind) {entries : List (Value × Value)}
      (hkeys : ∀ e ∈ entries, ShapeKey e.1) (h : ∀ e ∈ entries, Legible e.2) :
      Legible (mapping mark kind entries)
  | sequence (mark : Nat) (kind : SequenceKind) {items : List Value}
      (h : ∀ d ∈ items, Legible d) : Legible (sequence mark kind items)

variable {d t key laidKey : Value} {items laid : List Value}
  {entries laidEntries : List (Value × Value)}

/-! ## Outlines are data -/

theorem IsText.isKey (h : IsText key) : IsKey IsText key := by
  obtain ⟨mark, s, rfl⟩ := h
  exact ⟨⟨mark, s, rfl⟩, rfl⟩

/-- Fields under names that differ are data if their values are. -/
theorem data_fields (fields : List (String × Value)) (hapart : (fields.map Prod.fst).Nodup)
    (h : ∀ f ∈ fields, Data f.2) : Data (dict (fieldEntries fields)) := by
  refine .dict 0 ⟨?_, ?_⟩ ?_
  · intro e he
    obtain ⟨f, -, rfl⟩ := List.mem_map.mp he
    exact IsText.isKey ⟨0, f.1, rfl⟩
  · rw [fieldEntries, List.pairwise_map]
    refine (List.pairwise_map.mp hapart).imp ?_
    intro f g hne
    rw [Bool.eq_false_iff, Ne, sameKey_iff_asText rfl]
    exact fun heq => hne (Option.some.inj heq)
  · intro e he
    obtain ⟨f, hf, rfl⟩ := List.mem_map.mp he
    exact h f hf

theorem data_collected (hkeys : ∀ e ∈ laidEntries, IsText e.1) (h : ∀ e ∈ laidEntries, Data e.2) :
    Data (dict (collectEntries laidEntries)) :=
  .dict 0 (collectEntries_wellKeyed fun e he => (hkeys e he).isKey)
    (forall_item_mergeEntries Data (by simp) h)

theorem data_structure (h : Data t) : Data (structureOutline t) := by
  exact data_fields [("v", t)] (by simp) (List.forall_mem_singleton.mpr h)

theorem data_parts {tag : Tag} {parts : List (String × Value)}
    (hapart : ("tag" :: parts.map Prod.fst).Nodup) (h : ∀ f ∈ parts, Data f.2) :
    Data (partsOutline tag parts) := by
  refine data_structure (data_fields (("tag", text tag.label) :: parts) hapart ?_)
  exact List.forall_mem_cons.mpr ⟨.text 0 _, h⟩

theorem ShapeKey.isText (hkey : ShapeKey key) (h : outlineKey key = .ok laidKey) :
    IsText laidKey := by
  cases hkey with
  | text mark s =>
      obtain rfl := Except.ok.inj h
      exact ⟨mark, s, rfl⟩
  | wildcard mark =>
      obtain rfl := Except.ok.inj h
      exact ⟨0, _, rfl⟩

theorem data_of_outlineEntries (hkeys : ∀ e ∈ entries, ShapeKey e.1)
    (hitems : ∀ e ∈ entries, ∀ t, e.2.outline = .ok t → Data t)
    (h : outlineEntries entries = .ok laidEntries) :
    Data (dict (collectEntries laidEntries)) := by
  have hlaid : ∀ e ∈ laidEntries, IsText e.1 ∧ Data e.2 :=
    forall_mem_outlineEntries (fun e he key hkey => (hkeys e he).isText hkey) hitems h
  exact data_collected (fun e he => (hlaid e he).1) fun e he => (hlaid e he).2

theorem outline_of_predicate (hcallable : d.isCallable = true) (htagged : d.isTagged = false) :
    d.outline = (describeCallable d).map fun s => structureOutline (text s) := by
  cases d with
  | tagged => cases htagged
  | atom | mapping | sequence | bag | buffer | range | record | slotAccessor | computed | failing |
    mismatch => cases hcallable
  | _ => rw [Value.outline, if_pos hcallable] <;> simp

/-- The outline of a legible schema is data. -/
theorem Legible.data (hd : d.Legible) (h : d.outline = .ok t) : Data t := by
  induction hd generalizing t with
  | literal hdata =>
      obtain rfl := Except.ok.inj h
      exact data_structure hdata
  | simple mark tag hsimple =>
      have htag : Data (tagOutline tag) :=
        data_fields [("t", text tag.label)] (by simp) (List.forall_mem_singleton.mpr (.text 0 _))
      cases ‹Form Value› with
      | atomic | family | checker => exact Except.ok.inj h ▸ htag
      | _ => cases hsimple
  | @predicate f hcallable htagged =>
      rw [outline_of_predicate hcallable htagged] at h
      cases hname : describeCallable f with
      | error fault =>
          rw [hname] at h
          cases h
      | ok s =>
          rw [hname] at h
          exact Except.ok.inj h ▸ data_structure (.text 0 s)
  | array mark tag _ ih =>
      obtain ⟨e, he, h⟩ := bind_ok_iff.mp h
      exact Except.ok.inj h ▸ data_parts (by simp) (List.forall_mem_singleton.mpr (ih he))
  | record mark tag _ ih =>
      obtain ⟨e, he, h⟩ := bind_ok_iff.mp h
      exact Except.ok.inj h ▸ data_parts (by simp) (List.forall_mem_singleton.mpr (ih he))
  | optional mark tag hkeys hkeys' _ _ ih ih' =>
      obtain ⟨required, hrequired, h⟩ := bind_ok_iff.mp h
      obtain ⟨optional, hoptional, h⟩ := bind_ok_iff.mp h
      refine Except.ok.inj h ▸ data_parts (by simp) ?_
      rw [List.forall_mem_cons, List.forall_mem_singleton]
      exact ⟨data_of_outlineEntries hkeys (fun e he t => ih e he) hrequired,
        data_of_outlineEntries hkeys' (fun e he t => ih' e he) hoptional⟩
  | union mark tag _ ih =>
      obtain ⟨items, hitems, h⟩ := bind_ok_iff.mp h
      refine Except.ok.inj h ▸ data_parts (by simp) (List.forall_mem_singleton.mpr ?_)
      exact .list 0 (forall_mem_outlineItems (fun d hd t => ih d hd) hitems)
  | shape mark kind hkeys _ ih =>
      obtain ⟨entries, hentries, h⟩ := bind_ok_iff.mp h
      exact Except.ok.inj h ▸
        data_structure (data_of_outlineEntries hkeys (fun e he t => ih e he) hentries)
  | sequence mark kind _ ih =>
      obtain ⟨items, hitems, h⟩ := bind_ok_iff.mp h
      exact Except.ok.inj h ▸
        data_structure (.list 0 (forall_mem_outlineItems (fun d hd t => ih d hd) hitems))

/-! ## Outlines that fail -/

open Wording

variable {part : Wording} {reason : Fault}

theorem ShapeKey.fault_eq_none (h : ShapeKey key) (hpart : part ∈ ofLaidKey key) :
    part.fault = none := by
  cases h with
  | text => cases hpart
  | wildcard =>
      obtain rfl := List.mem_singleton.mp hpart
      rfl

theorem exists_entry_of_fault (hkeys : ∀ e ∈ entries, ShapeKey e.1)
    (hpart : part ∈ ofOutlinedEntries entries) (hfault : part.fault = some reason) :
    ∃ e ∈ entries, part = .outlined e.2 := by
  obtain ⟨e, he, hpart⟩ := List.mem_flatMap.mp hpart
  rcases List.mem_append.mp hpart with hkey | hitem
  · rw [(hkeys e he).fault_eq_none hkey] at hfault
    cases hfault
  · exact ⟨e, he, List.mem_singleton.mp hitem⟩

/-- A wording fails because of a predicate that has no name. -/
def Nameless (reason : Fault) (t : Wording) : Prop :=
  ∃ f, t.ComesTo (name f) ∧ f.predicateName f.typeName = .error reason

theorem nameless_of_part {t : Wording} (h : t.fault = some reason) (hown : t.ownFault = none)
    (hparts : ∀ part ∈ t.parts, part.fault = some reason → Nameless reason part) :
    Nameless reason t := by
  rcases own_or_part_of_fault h with hown' | ⟨part, hpart, hfault⟩
  · rw [ownFault_eq_some_iff.mpr hown'] at hown
    cases hown
  · obtain ⟨f, hcomes, hname⟩ := hparts part hpart hfault
    exact ⟨f, .head hpart hcomes, hname⟩

theorem nameless_of_name {f : Value} (h : (name f).fault = some reason) :
    Nameless reason (name f) := by
  refine ⟨f, .refl, fault_some_iff.mp ?_⟩
  rw [fault_predicateName]
  exact (fault_predicateName f "").symm.trans h

theorem parts_of_predicate (hcallable : d.isCallable = true) (htagged : d.isTagged = false) :
    (outlined d).parts = [name d] := by
  cases d with
  | tagged => cases htagged
  | atom | mapping | sequence | bag | buffer | range | record | slotAccessor | computed | failing |
    mismatch => cases hcallable
  | _ => rw [Wording.parts, ofOutlined, if_pos hcallable] <;> simp

/-- A legible schema has an outline, unless it tells a predicate that has no name. -/
theorem Legible.nameless (hd : d.Legible) (h : (outlined d).fault = some reason) :
    Nameless reason (outlined d) := by
  induction hd with
  | @literal mark a hdata =>
      cases h
  | simple mark tag hsimple =>
      cases ‹Form Value› with
      | atomic | family | checker => cases h
      | _ => cases hsimple
  | @predicate f hcallable htagged =>
      refine nameless_of_part h rfl ?_
      rw [parts_of_predicate hcallable htagged, List.forall_mem_singleton]
      exact nameless_of_name
  | array mark tag _ ih | record mark tag _ ih =>
      exact nameless_of_part h rfl (List.forall_mem_singleton.mpr ih)
  | optional mark tag hkeys hkeys' _ _ ih ih' =>
      refine nameless_of_part h rfl fun part hpart hfault => ?_
      rcases List.mem_append.mp hpart with hpart | hpart
      · obtain ⟨e, he, rfl⟩ := exists_entry_of_fault hkeys hpart hfault
        exact ih e he hfault
      · obtain ⟨e, he, rfl⟩ := exists_entry_of_fault hkeys' hpart hfault
        exact ih' e he hfault
  | union mark tag _ ih | sequence mark kind _ ih =>
      refine nameless_of_part h rfl fun part hpart hfault => ?_
      obtain ⟨d, hd, rfl⟩ := List.mem_map.mp hpart
      exact ih d hd hfault
  | shape mark kind hkeys _ ih =>
      refine nameless_of_part h rfl fun part hpart hfault => ?_
      obtain ⟨e, he, rfl⟩ := exists_entry_of_fault hkeys hpart hfault
      exact ih e he hfault

end Value

namespace Mismatch

open Value Json

/-- A key or an index that a mismatch tells. -/
inductive LegibleKey : Value → Prop
  | text (mark : Nat) (s : String) : LegibleKey (.atom mark (.text s false))
  | index (mark : Nat) {i : Int} (hi : i.natAbs < 10 ^ Number.maxDigits) :
      LegibleKey (.atom mark (.number (.int i false)))

/-- Mismatches that mention nothing but data, and schemas that are made of it. -/
inductive Legible : Problem → Prop
  | incorrectType {expected got : Value} (hexpected : expected.Legible) (hgot : Data got) :
      Legible (.incorrectType expected got)
  | incorrectValue {expected got : Value} (hexpected : Data expected) (hgot : Data got) :
      Legible (.incorrectValue expected got)
  | unionNoMatch {errors : List Problem} (h : ∀ m ∈ errors, Legible m) :
      Legible (.unionNoMatch errors)
  | arrayError {error : Problem} {index : Int} (h : Legible error)
      (hindex : index.natAbs < 10 ^ Number.maxDigits) : Legible (.arrayError error index)
  | recordError {error : Problem} {key : Value} (h : Legible error) (hkey : LegibleKey key) :
      Legible (.recordError error key)
  | objectError {error : Problem} {key : Value} (h : Legible error) (hkey : LegibleKey key) :
      Legible (.objectError error key)
  | requiredKeyMissing {key : Value} (hkey : LegibleKey key) : Legible (.requiredKeyMissing key)
  | illegalExtraKey {key : Value} (hkey : LegibleKey key) : Legible (.illegalExtraKey key)
  | checkerFailed (reason : Option String) : Legible (.checkerFailed reason)

variable {m : Problem} {t key : Value} {reason : Fault}

theorem LegibleKey.outlineKey (h : LegibleKey key) : outlineKey key = .ok key ∧ Data key := by
  cases h with
  | text mark s => exact ⟨rfl, .text mark s⟩
  | index mark hi => exact ⟨rfl, .int mark hi⟩

theorem LegibleKey.ofLaidKey (h : LegibleKey key) : Wording.ofLaidKey key = [] := by
  cases h <;> rfl

/-- The layout of a node is data if its fields are. -/
theorem data_node (kind : String) {fields : List (String × Value)}
    (hapart : ("e" :: fields.map Prod.fst).Nodup) (h : ∀ f ∈ fields, Data f.2) :
    Data (node kind fields) :=
  data_fields (("e", .text kind) :: fields) hapart (List.forall_mem_cons.mpr ⟨.text 0 kind, h⟩)

/-- The tree of a legible mismatch is data. -/
theorem Legible.data (hm : m.Legible) (h : m.tree = .ok t) : Data t := by
  induction hm generalizing t with
  | incorrectType hexpected hgot =>
      obtain ⟨expected, hexpected', h⟩ := bind_ok_iff.mp h
      refine Except.ok.inj h ▸ data_node _ (by simp) ?_
      rw [List.forall_mem_cons, List.forall_mem_singleton]
      exact ⟨hexpected.data hexpected', hgot⟩
  | incorrectValue hexpected hgot =>
      refine Except.ok.inj h ▸ data_node _ (by simp) ?_
      rw [List.forall_mem_cons, List.forall_mem_singleton]
      exact ⟨hexpected, hgot⟩
  | unionNoMatch _ ih =>
      obtain ⟨ts, hts, h⟩ := bind_ok_iff.mp h
      refine Except.ok.inj h ▸ data_node _ (by simp) (List.forall_mem_singleton.mpr ?_)
      exact .list 0 (forall_mem_trees (fun m hm t => ih m hm) hts)
  | arrayError _ hindex ih =>
      obtain ⟨error, herror, h⟩ := bind_ok_iff.mp h
      refine Except.ok.inj h ▸ data_node _ (by simp) ?_
      rw [List.forall_mem_cons, List.forall_mem_singleton]
      exact ⟨ih herror, .int 0 hindex⟩
  | recordError _ hkey ih | objectError _ hkey ih =>
      obtain ⟨error, herror, h⟩ := bind_ok_iff.mp h
      rw [hkey.outlineKey.1] at h
      refine Except.ok.inj h ▸ data_node _ (by simp) ?_
      rw [List.forall_mem_cons, List.forall_mem_singleton]
      exact ⟨ih herror, hkey.outlineKey.2⟩
  | requiredKeyMissing hkey | illegalExtraKey hkey =>
      rw [tree, hkey.outlineKey.1] at h
      exact Except.ok.inj h ▸
        data_node _ (by simp) (List.forall_mem_singleton.mpr hkey.outlineKey.2)
  | checkerFailed reason =>
      refine Except.ok.inj h ▸ data_node _ (by simp) (List.forall_mem_singleton.mpr ?_)
      cases reason with
      | none => exact .bool 0 false
      | some s => exact .text 0 s

/-- A legible mismatch has a tree, unless it tells a predicate that has no name. -/
theorem Legible.nameless (hm : m.Legible) (h : (Wording.laid m).fault = some reason) :
    Nameless reason (.laid m) := by
  induction hm with
  | incorrectType hexpected =>
      exact nameless_of_part h rfl (List.forall_mem_singleton.mpr hexpected.nameless)
  | unionNoMatch _ ih =>
      refine nameless_of_part h rfl fun part hpart hfault => ?_
      obtain ⟨m, hm, rfl⟩ := List.mem_map.mp hpart
      exact ih m hm hfault
  | arrayError _ _ ih => exact nameless_of_part h rfl (List.forall_mem_singleton.mpr ih)
  | recordError _ hkey ih | objectError _ hkey ih =>
      refine nameless_of_part h rfl ?_
      rw [Wording.parts, Wording.ofLaid, hkey.ofLaidKey, List.forall_mem_singleton]
      exact ih
  | requiredKeyMissing hkey | illegalExtraKey hkey =>
      refine nameless_of_part h rfl ?_
      simp [Wording.parts, Wording.ofLaid, hkey.ofLaidKey]
  | incorrectValue | checkerFailed => cases h

/-- A list that is neither an array of numbers nor an object with a text, under a key. -/
def nestedMismatch : Problem :=
  .objectError
    (.unionNoMatch
      [.arrayError (.incorrectType (Schema.ofFamily .number) (.text "\"é\n")) 1,
        .incorrectType (.dict [(.text "b", .native .str)]) (.list [.int 7, .text "\"é\n"]),
        .checkerFailed (some "too short")])
    (.text "a")

theorem nestedMismatch_legible : nestedMismatch.Legible := by
  have htext : Data (.text "\"é\n") := .text 0 _
  have hseven : Data (.int 7) := .int 0 (Wording.short_of_digit (by decide))
  have hshape : (Value.dict [(.text "b", .native .str)]).Legible := by
    refine .shape 0 .dict ?_ ?_
    · exact List.forall_mem_singleton.mpr (.text 0 "b")
    · exact List.forall_mem_singleton.mpr (.predicate rfl rfl)
  have hlist : Data (.list [.int 7, .text "\"é\n"]) := by
    refine .list 0 ?_
    rw [List.forall_mem_cons, List.forall_mem_singleton]
    exact ⟨hseven, htext⟩
  have hindex : (1 : Int).natAbs < 10 ^ Number.maxDigits := Wording.short_of_digit (by decide)
  refine .objectError (.unionNoMatch ?_) (.text 0 "a")
  simp only [List.forall_mem_cons]
  exact ⟨.arrayError (.incorrectType (.simple 0 _ rfl) htext) hindex,
    .incorrectType hshape hlist, .checkerFailed _, by simp⟩

/-- A callable object whose class computes its name, and fails. -/
def namelessPredicate : Value :=
  .object 0 [⟨"C", .absent, [("__name__", .failing "ValueError")], none, none, none, true⟩] [] []

/-- A number is no array of what the predicate approves of. -/
def namelessMismatch : Problem := .incorrectType (Schema.arrayOf namelessPredicate) (.int 1)

end Mismatch

end ShapeCheck
