import ShapeCheck.Mismatch.Tree
import ShapeCheck.Proofs.JsonWriting
import ShapeCheck.Proofs.Mentions
import ShapeCheck.Proofs.Merging
import ShapeCheck.Schema.Build

/-!
# What keeps a mismatch from being written

The tree of a mismatch is written as JSON text.  If every value has a plain text, only three
things keep a mismatch from being written: a mapping that is written as an object has a key
that JSON refuses, a constant is also an integer of too many digits, or the outline of a
schema tells a predicate whose name cannot be looked up.

Main statement: where all that is found in a schema and a value has a plain text, a mismatch
of their check is written exactly if nothing of these kinds hinders it
(`Mismatch.json_of_check`).
-/

namespace ShapeCheck

/-! ## Trees over values that have texts -/

/-- All values of a collection have plain texts, and all that is found in them is in it. -/
structure Spoken (P : Value → Prop) : Prop where
  found {x y : Value} (hx : P x) (hy : x.Found y) : P y
  text {x : Value} (hx : P x) : ∃ s, x.plain = .ok s

namespace Value

/-- A key of a tree has a text, unless it is a constant of the collection. -/
def GroundedKey (P : Value → Prop) (key : Value) : Prop :=
  key.HasKeyText ∨ P key ∧ ∃ reason, Lengthy reason key

/-- Trees that hold values of a collection, and otherwise only what is written under keys
that have a text. -/
inductive Grounded (P : Value → Prop) : Value → Prop
  | raw {x : Value} (hx : P x) : Grounded P x
  | no : Grounded P (bool false)
  | text (s : String) : Grounded P (text s)
  | list {items : List Value} (hitems : ∀ item ∈ items, Grounded P item) :
      Grounded P (list items)
  | dict {entries : List (Value × Value)} (hkeys : ∀ e ∈ entries, GroundedKey P e.1)
      (hitems : ∀ e ∈ entries, Grounded P e.2) : Grounded P (dict entries)

variable {P : Value → Prop} {v d key x item t : Value}
  {entries laidEntries : List (Value × Value)} {items laid : List Value} {reason : Fault}

theorem found_of_mem_writtenItems (h : item ∈ x.writtenItems) : x.Found item := by
  cases x with
  | sequence => exact found_of_mem_sequence h
  | mapping mark kind entries =>
      rw [writtenItems] at h
      split at h
      · obtain ⟨e, he, rfl⟩ := List.mem_map.mp h
        exact .item he
      · cases h
  | _ => cases h

theorem found_of_mem_writtenKeys (h : key ∈ x.writtenKeys) : x.Found key := by
  cases x with
  | mapping mark kind entries =>
      rw [writtenKeys] at h
      split at h
      · obtain ⟨e, he, rfl⟩ := List.mem_map.mp h
        exact .key he
      · cases h
  | _ => cases h

theorem Grounded.writes (hP : Spoken P) (ht : Grounded P t) (h : t.Writes x) : Grounded P x := by
  induction h with
  | refl => exact ht
  | tail _ hitem ih =>
      cases ih with
      | raw hx => exact .raw (hP.found hx (found_of_mem_writtenItems hitem))
      | no | text => cases hitem
      | list hitems => exact hitems _ hitem
      | dict _ hitems =>
          obtain ⟨e, he, rfl⟩ := List.mem_map.mp hitem
          exact hitems e he

open Json in
/-- In such a tree nothing but a value of the collection keeps anything from being written: a
mapping by one of its keys, or a constant by its digits. -/
theorem Grounded.blocks (hP : Spoken P) (hx : Grounded P x) (h : Blocks x reason) :
    (P x ∧ ∃ key ∈ x.writtenKeys, reason = .keyNotEncodable key.qualifiedTypeName ∧
      keyText .standard key = .error reason) ∨
      ∃ c, (c = x ∨ c ∈ x.writtenKeys) ∧ P c ∧ Lengthy reason c := by
  cases hx with
  | raw hx =>
      cases h with
      | @key key hkey hrefused =>
          have hfound := hP.found hx (found_of_mem_writtenKeys hkey)
          rcases refused_of_keyText (hP.text hfound) hrefused with htype | hlengthy
          · exact .inl ⟨hx, key, hkey, htype, hrefused⟩
          · exact .inr ⟨key, .inr hkey, hfound, hlengthy⟩
      | plain _ hplain =>
          obtain ⟨s, hs⟩ := hP.text hx
          cases hs.symm.trans hplain
      | digits hlengthy => exact .inr ⟨x, .inl rfl, hx, hlengthy⟩
  | no | text =>
      cases h with
      | key hkey => cases hkey
      | plain _ hplain => cases hplain
      | digits hlengthy => cases hlengthy
  | list =>
      cases h with
      | key hkey => cases hkey
      | plain hcomposed => cases hcomposed
      | digits hlengthy => cases hlengthy
  | dict hkeys =>
      cases h with
      | key hkey hrefused =>
          obtain ⟨e, he, rfl⟩ := List.mem_map.mp hkey
          rcases hkeys e he with ⟨s, hs⟩ | ⟨hheld, fault, hlengthy⟩
          · cases hs.symm.trans hrefused
          · obtain rfl := Except.error.inj ((keyText_of_lengthy hlengthy).symm.trans hrefused)
            exact .inr ⟨e.1, .inr hkey, hheld, hlengthy⟩
      | plain hcomposed => cases hcomposed
      | digits hlengthy => cases hlengthy

/-! ## Outlines -/

theorem groundedKey_text (s : String) : GroundedKey P (Value.text s) := .inl ⟨s, rfl⟩

theorem grounded_fields (fields : List (String × Value)) (h : ∀ f ∈ fields, Grounded P f.2) :
    Grounded P (Value.dict (fieldEntries fields)) := by
  refine .dict ?_ ?_
  · intro e he
    obtain ⟨f, -, rfl⟩ := List.mem_map.mp he
    exact groundedKey_text f.1
  · intro e he
    obtain ⟨f, hf, rfl⟩ := List.mem_map.mp he
    exact h f hf

theorem grounded_structure (h : Grounded P t) : Grounded P (structureOutline t) :=
  grounded_fields [("v", t)] (List.forall_mem_singleton.mpr h)

theorem grounded_parts {tag : Tag} {parts : List (String × Value)}
    (h : ∀ f ∈ parts, Grounded P f.2) : Grounded P (partsOutline tag parts) := by
  refine grounded_structure (grounded_fields (("tag", .text tag.label) :: parts) ?_)
  exact List.forall_mem_cons.mpr ⟨.text _, h⟩

theorem grounded_collected (hkeys : ∀ e ∈ entries, GroundedKey P e.1)
    (hitems : ∀ e ∈ entries, Grounded P e.2) :
    Grounded P (Value.dict (collectEntries entries)) :=
  .dict (forall_key_mergeEntries (GroundedKey P) (by simp) hkeys)
    (forall_item_mergeEntries (Grounded P) (by simp) hitems)

/-- The key of an outline has a text if the key of the shape is one of the collection. -/
theorem groundedKey_of_outlineKey (hP : Spoken P) (hkey : P key) (h : outlineKey key = .ok t) :
    GroundedKey P t := by
  obtain ⟨s, hs⟩ := hP.text hkey
  unfold outlineKey at h
  split at h
  case h_4 i _ | h_7 _ _ i =>
    obtain rfl := Except.ok.inj h
    have hdigits : Number.intText i = .ok s := hs
    refine .inl ⟨s, ?_⟩
    simp only [Json.keyText, Json.keyText?, Json.atomText?, hdigits, Except.map]
  case h_5 x | h_9 _ _ x =>
    obtain rfl := Except.ok.inj h
    cases x <;> exact .inl ⟨_, rfl⟩
  case h_8 mark owner name i derived =>
    obtain rfl := Except.ok.inj h
    rcases hdigits : Number.intText i with reason | digits
    · exact .inr ⟨hkey, reason, .intro hdigits⟩
    · refine .inl ⟨digits, ?_⟩
      simp only [Json.keyText, Json.keyText?, Json.atomText?, hdigits, Except.map]
  case h_10 =>
    rw [hs] at h
    obtain rfl := Except.ok.inj h
    exact groundedKey_text s
  all_goals
    obtain rfl := Except.ok.inj h
    exact .inl ⟨_, rfl⟩

theorem grounded_of_outlineEntries (hP : Spoken P) (hkeys : ∀ e ∈ entries, P e.1)
    (hitems : ∀ e ∈ entries, ∀ t, e.2.outline = .ok t → Grounded P t)
    (h : outlineEntries entries = .ok laidEntries) :
    Grounded P (Value.dict (collectEntries laidEntries)) := by
  have hlaid : ∀ e ∈ laidEntries, GroundedKey P e.1 ∧ Grounded P e.2 :=
    forall_mem_outlineEntries (fun e he _ => groundedKey_of_outlineKey hP (hkeys e he)) hitems h
  exact grounded_collected (fun e he => (hlaid e he).1) fun e he => (hlaid e he).2

/-- What is neither a tagged schema nor a shape is laid out as it is, or by its name. -/
theorem grounded_of_other (hd : P d)
    (h : (if d.isCallable then (describeCallable d).map fun s => structureOutline (.text s)
      else .ok (structureOutline d)) = .ok t) : Grounded P t := by
  split at h
  · rcases hname : describeCallable d with fault | s
    · rw [hname] at h
      cases h
    · rw [hname] at h
      exact Except.ok.inj h ▸ grounded_structure (.text s)
  · exact Except.ok.inj h ▸ grounded_structure (.raw hd)

/-- The outline of a schema of the collection. -/
theorem Grounded.outline (hP : Spoken P) (hd : P d) (h : d.outline = .ok t) : Grounded P t := by
  induction hsize : sizeOf d using Nat.strongRecOn generalizing d t with
  | _ n ih =>
      subst hsize
      have hpart {part t : Value} (hpart : d.Found part) (hlt : sizeOf part < sizeOf d) :
          part.outline = .ok t → Grounded P t :=
        fun ht => ih _ hlt (hP.found hd hpart) ht rfl
      have hitems {items laid : List Value} (hfound : ∀ item ∈ items, d.Found item)
          (hlt : sizeOf items < sizeOf d) (hlaid : outlineItems items = .ok laid) :
          Grounded P (Value.list laid) := by
        refine .list (forall_mem_outlineItems (fun item hitem t ht => ?_) hlaid)
        have hsize := List.sizeOf_lt_of_mem hitem
        exact hpart (hfound item hitem) (by omega) ht
      have hentries {entries laid : List (Value × Value)}
          (hfound : ∀ e ∈ entries, d.Found e.1 ∧ d.Found e.2) (hlt : sizeOf entries < sizeOf d)
          (hlaid : outlineEntries entries = .ok laid) :
          Grounded P (Value.dict (collectEntries laid)) := by
        refine grounded_of_outlineEntries hP
          (fun e he => hP.found hd (hfound e he).1) (fun e he t ht => ?_) hlaid
        have hsize := List.sizeOf_lt_of_mem he
        have hentry : sizeOf e = 1 + sizeOf e.1 + sizeOf e.2 := rfl
        exact hpart (hfound e he).2 (by omega) ht
      cases d with
      | tagged mark tag form =>
          cases form with
          | bare => exact Except.ok.inj h ▸ grounded_structure (.raw hd)
          | atomic | family | checker =>
              exact Except.ok.inj h ▸
                grounded_fields [("t", .text tag.label)] (List.forall_mem_singleton.mpr (.text _))
          | array e | record e =>
              obtain ⟨laid, hlaid, h⟩ := bind_ok_iff.mp h
              have ht := hpart (.part (by simp [Form.schemas])) (by simp; omega) hlaid
              exact Except.ok.inj h ▸ grounded_parts (List.forall_mem_singleton.mpr ht)
          | optional own others =>
              obtain ⟨required, hrequired, h⟩ := bind_ok_iff.mp h
              obtain ⟨optional, hoptional, h⟩ := bind_ok_iff.mp h
              refine Except.ok.inj h ▸ grounded_parts ?_
              rw [List.forall_mem_cons, List.forall_mem_singleton]
              constructor
              · refine hentries (fun e he => ?_) (by simp; omega) hrequired
                exact found_of_mem_optional (List.mem_append_left _ he)
              · refine hentries (fun e he => ?_) (by simp; omega) hoptional
                exact found_of_mem_optional (List.mem_append_right _ he)
          | union alternatives =>
              obtain ⟨laid, hlaid, h⟩ := bind_ok_iff.mp h
              refine Except.ok.inj h ▸ grounded_parts (List.forall_mem_singleton.mpr ?_)
              refine hitems (fun item hitem => ?_) (by simp; omega) hlaid
              exact .part (List.mem_append_right _ hitem)
      | mapping mark kind entries =>
          obtain ⟨laid, hlaid, h⟩ := bind_ok_iff.mp h
          have hfound (e : Value × Value) (he : e ∈ entries) :
              (mapping mark kind entries).Found e.1 ∧ (mapping mark kind entries).Found e.2 :=
            ⟨.key he, .item he⟩
          exact Except.ok.inj h ▸ grounded_structure
            (hentries hfound (by simp only [mapping.sizeOf_spec]; omega) hlaid)
      | sequence mark kind items =>
          obtain ⟨laid, hlaid, h⟩ := bind_ok_iff.mp h
          exact Except.ok.inj h ▸ grounded_structure
            (hitems (fun item hitem => found_of_mem_sequence hitem)
              (by simp only [sequence.sizeOf_spec]; omega) hlaid)
      | _ => exact grounded_of_other hd h

end Value

/-! ## Trees of mismatches -/

namespace Mismatch

open Value

variable {P : Value → Prop} {m : Problem} {t key : Value}

theorem grounded_node (kind : String) {fields : List (String × Value)}
    (h : ∀ f ∈ fields, Grounded P f.2) : Grounded P (node kind fields) :=
  grounded_fields (("e", .text kind) :: fields) (List.forall_mem_cons.mpr ⟨.text kind, h⟩)

/-- A key is laid out as it is, or by a text. -/
theorem grounded_of_outlineKey (hkey : P key ∨ ∃ s, key = .text s) (h : outlineKey key = .ok t) :
    Grounded P t := by
  have hraw : Grounded P key := by
    rcases hkey with hkey | ⟨s, rfl⟩
    · exact .raw hkey
    · exact .text s
  unfold outlineKey at h
  split at h
  case h_10 =>
    rcases hplain : key.plain with fault | s
    · rw [hplain] at h
      cases h
    · rw [hplain] at h
      exact Except.ok.inj h ▸ .text s
  all_goals exact Except.ok.inj h ▸ hraw

/-- The tree of a mismatch that mentions nothing but values of the collection. -/
theorem Within.grounded (hP : Spoken P) (hm : m.Within P) (h : m.tree = .ok t) :
    Grounded P t := by
  induction hm generalizing t with
  | incorrectType hexpected hgot =>
      obtain ⟨expected, houtline, h⟩ := bind_ok_iff.mp h
      refine Except.ok.inj h ▸ grounded_node _ ?_
      rw [List.forall_mem_cons, List.forall_mem_singleton]
      exact ⟨.outline hP hexpected houtline, .raw hgot⟩
  | incorrectValue hexpected hgot =>
      refine Except.ok.inj h ▸ grounded_node _ ?_
      rw [List.forall_mem_cons, List.forall_mem_singleton]
      exact ⟨.raw hexpected, .raw hgot⟩
  | unionNoMatch _ ih =>
      obtain ⟨ts, hts, h⟩ := bind_ok_iff.mp h
      exact Except.ok.inj h ▸ grounded_node _
        (List.forall_mem_singleton.mpr (.list (forall_mem_trees (fun m hm t => ih m hm) hts)))
  | arrayError _ hindex ih =>
      obtain ⟨error, herror, h⟩ := bind_ok_iff.mp h
      refine Except.ok.inj h ▸ grounded_node _ ?_
      rw [List.forall_mem_cons, List.forall_mem_singleton]
      exact ⟨ih herror, .raw hindex⟩
  | recordError _ hkey ih =>
      obtain ⟨error, herror, h⟩ := bind_ok_iff.mp h
      obtain ⟨key, hlaid, h⟩ := bind_ok_iff.mp h
      refine Except.ok.inj h ▸ grounded_node _ ?_
      rw [List.forall_mem_cons, List.forall_mem_singleton]
      exact ⟨ih herror, grounded_of_outlineKey (.inl hkey) hlaid⟩
  | objectError _ hkey ih =>
      obtain ⟨error, herror, h⟩ := bind_ok_iff.mp h
      obtain ⟨key, hlaid, h⟩ := bind_ok_iff.mp h
      refine Except.ok.inj h ▸ grounded_node _ ?_
      rw [List.forall_mem_cons, List.forall_mem_singleton]
      exact ⟨ih herror, grounded_of_outlineKey hkey hlaid⟩
  | requiredKeyMissing hkey | illegalExtraKey hkey =>
      obtain ⟨key, hlaid, h⟩ := bind_ok_iff.mp h
      exact Except.ok.inj h ▸ grounded_node _
        (List.forall_mem_singleton.mpr (grounded_of_outlineKey (.inl hkey) hlaid))
  | checkerFailed result =>
      have hresult : Grounded P (reasonValue result) := by
        cases result with
        | none => exact .no
        | some s => exact .text s
      exact Except.ok.inj h ▸ grounded_node _ (List.forall_mem_singleton.mpr hresult)

end Mismatch

/-! ## Predicates that are told by name -/

namespace Wording

open Value

variable {P : Value → Prop} {t part : Wording} {m : Problem} {reason : Fault}

/-- What the layout of a mismatch comes to, if this mentions nothing but values of the
collection. -/
inductive Sound (P : Value → Prop) : Wording → Prop
  | told {t : Wording} (h : t.fault = none) : Sound P t
  | laid {m : Problem} (hm : m.Within P) : Sound P (laid m)
  | outlined {d : Value} (hd : P d) : Sound P (outlined d)
  | name {p : Value} (hp : P p) : Sound P (name p)

theorem fault_part_eq_none (h : t.fault = none) (hpart : part ∈ t.parts) : part.fault = none :=
  ComesTo.fault_eq_none (.single hpart) h

theorem sound_of_ofLaidKey {key : Value} (hkey : ∃ s, key.plain = .ok s)
    (hpart : part ∈ ofLaidKey key) : Sound P part := by
  unfold ofLaidKey at hpart
  split at hpart
  case h_10 =>
    obtain rfl := List.mem_singleton.mp hpart
    exact .told (fault_none_iff.mpr hkey)
  all_goals cases hpart

theorem sound_of_ofOutlinedEntries (hP : Spoken P) {entries : List (Value × Value)}
    (hentries : ∀ e ∈ entries, P e.1 ∧ P e.2) (hpart : part ∈ ofOutlinedEntries entries) :
    Sound P part := by
  obtain ⟨e, he, hpart⟩ := List.mem_flatMap.mp hpart
  rcases List.mem_append.mp hpart with hkey | hitem
  · exact sound_of_ofLaidKey (hP.text (hentries e he).1) hkey
  · obtain rfl := List.mem_singleton.mp hitem
    exact .outlined (hentries e he).2

theorem sound_of_outlined (hP : Spoken P) {d : Value} (hd : P d) (hpart : part ∈ ofOutlined d) :
    Sound P part := by
  have hitem {x : Value} (hx : d.Found x) : Sound P (outlined x) := .outlined (hP.found hd hx)
  cases d with
  | tagged mark tag form =>
      cases form with
      | array e | record e =>
          obtain rfl := List.mem_singleton.mp hpart
          exact hitem (.part (by simp [Form.schemas]))
      | union alternatives =>
          obtain ⟨x, hx, rfl⟩ := List.mem_map.mp hpart
          exact hitem (.part (List.mem_append_right _ hx))
      | optional own others =>
          have hfound (e : Value × Value) (he : e ∈ own ++ others) : P e.1 ∧ P e.2 :=
            (found_of_mem_optional he).imp (hP.found hd) (hP.found hd)
          rcases List.mem_append.mp hpart with hpart | hpart
          · exact sound_of_ofOutlinedEntries hP
              (fun e he => hfound e (List.mem_append_left _ he)) hpart
          · exact sound_of_ofOutlinedEntries hP
              (fun e he => hfound e (List.mem_append_right _ he)) hpart
      | _ => cases hpart
  | mapping mark kind entries =>
      exact sound_of_ofOutlinedEntries hP
        (fun e he => ⟨hP.found hd (.key he), hP.found hd (.item he)⟩) hpart
  | sequence mark kind items =>
      obtain ⟨x, hx, rfl⟩ := List.mem_map.mp hpart
      exact hitem (found_of_mem_sequence hx)
  | _ =>
      rw [ofOutlined] at hpart
      · split at hpart
        · obtain rfl := List.mem_singleton.mp hpart
          exact .name hd
        · cases hpart
      all_goals simp

/-- The name of a predicate of the collection is told by an atom that has a text. -/
theorem sound_of_name (hP : Spoken P) {p : Value} (hp : P p) (hpart : part ∈ ofName p) :
    Sound P part := by
  rw [ofName] at hpart
  split at hpart
  next mark a hname =>
    have hatom := fault_none_iff.mpr (hP.text (hP.found hp (.named hname)))
    have hdigits : firstFault (ofAtom a) = none := (fault_ofAtom a).symm.trans hatom
    exact .told (List.findSome?_eq_none_iff.mp hdigits part hpart)
  next => cases hpart

theorem sound_of_laid (hP : Spoken P) (hm : m.Within P) (hpart : part ∈ ofLaid m) :
    Sound P part := by
  have htext {key : Value} (hkey : P key ∨ ∃ s, key = .text s) : ∃ s, key.plain = .ok s := by
    rcases hkey with hkey | ⟨s, rfl⟩
    · exact hP.text hkey
    · exact ⟨s, rfl⟩
  cases hm with
  | incorrectType hexpected =>
      obtain rfl := List.mem_singleton.mp hpart
      exact .outlined hexpected
  | unionNoMatch herrors =>
      obtain ⟨error, herror, rfl⟩ := List.mem_map.mp hpart
      exact .laid (herrors error herror)
  | arrayError herror =>
      obtain rfl := List.mem_singleton.mp hpart
      exact .laid herror
  | recordError herror hkey =>
      rcases List.mem_cons.mp hpart with rfl | hpart
      · exact .laid herror
      · exact sound_of_ofLaidKey (hP.text hkey) hpart
  | objectError herror hkey =>
      rcases List.mem_cons.mp hpart with rfl | hpart
      · exact .laid herror
      · exact sound_of_ofLaidKey (htext hkey) hpart
  | requiredKeyMissing hkey | illegalExtraKey hkey => exact sound_of_ofLaidKey (hP.text hkey) hpart
  | incorrectValue | checkerFailed => cases hpart

theorem Sound.of_mem_parts (hP : Spoken P) (ht : Sound P t) (hpart : part ∈ t.parts) :
    Sound P part := by
  cases ht with
  | told h => exact .told (fault_part_eq_none h hpart)
  | laid hm => exact sound_of_laid hP hm hpart
  | outlined hd => exact sound_of_outlined hP hd hpart
  | name hp => exact sound_of_name hP hp hpart

/-- The layout of a mismatch only fails for a predicate whose name cannot be looked up. -/
theorem exists_name_of_unspoken (hP : Spoken P) (hm : m.Within P)
    (h : (laid m).Unspoken reason) :
    ∃ p, P p ∧ (laid m).ComesTo (name p) ∧ p.attribute? "__name__" = .error reason := by
  obtain ⟨part, hcomes, hown⟩ := h
  have hsound : Sound P part := by
    clear hown
    induction hcomes with
    | refl => exact .laid hm
    | tail _ hpart ih => exact ih.of_mem_parts hP hpart
  have hfault : part.fault ≠ none := by
    rw [fault_eq, ownFault_eq_some_iff.mpr hown]
    nofun
  cases hown with
  | digits =>
      cases hsound with
      | told h => exact absurd h hfault
  | @name p _ hname =>
      cases hsound with
      | told h => exact absurd h hfault
      | name hp => exact ⟨p, hp, hcomes, hname⟩
  | decided =>
      cases hsound with
      | told h => exact absurd h hfault

end Wording

/-! ## Mismatches of checks -/

namespace Mismatch

open Check Json Run Value Wording

variable {σ : Type} {host : Host σ} {d v : Value} {m : Problem} {w w' : World σ}

/-- What is found in a schema or in a value, however many steps on. -/
def Involved (d v x : Value) : Prop := d.LeadsTo x ∨ v.LeadsTo x

/-- What keeps the mismatch of a check from being written, and why: a key of a mapping that is
written as an object, a constant that is written by its digits, or a predicate that is told by
a name. -/
inductive Hinders (d v : Value) (m : Problem) : Fault → Prop
  | key {tree x key : Value} (htree : m.tree = .ok tree) (hwrites : tree.Writes x)
      (hx : Involved d v x) (hkey : key ∈ x.writtenKeys)
      (hrefused : keyText .standard key = .error (.keyNotEncodable key.qualifiedTypeName)) :
      Hinders d v m (.keyNotEncodable key.qualifiedTypeName)
  | digits {tree x c : Value} {reason : Fault} (htree : m.tree = .ok tree)
      (hwrites : tree.Writes x) (hwritten : c = x ∨ c ∈ x.writtenKeys) (hc : Involved d v c)
      (hlengthy : Lengthy reason c) : Hinders d v m reason
  | name {p : Value} {reason : Fault} (hp : Involved d v p)
      (hcomes : (laid m).ComesTo (name p)) (hname : p.attribute? "__name__" = .error reason) :
      Hinders d v m reason

theorem spoken_of_texts (htexts : ∀ x, Involved d v x → ∃ s, x.plain = .ok s) :
    Spoken (Involved d v) where
  found hx hy := hx.imp (.tail · hy) (.tail · hy)
  text hx := htexts _ hx

/-- A mismatch that is written is hindered by nothing. -/
theorem not_hinders {s : String} {reason : Fault} (h : m.json .standard = .ok s) :
    ¬ Hinders d v m reason := by
  obtain ⟨tree, htree, hwritten⟩ := bind_ok_iff.mp h
  have hroot : fault? (writeAt .standard 0 tree) = none := fault_none_iff.mpr ⟨_, hwritten⟩
  intro hhinders
  cases hhinders with
  | key htree' hwrites _ hkey hrefused =>
      obtain rfl := Except.ok.inj (htree.symm.trans htree')
      obtain ⟨s, hs⟩ := hasKeyText_of_written hroot hwrites hkey
      cases hs.symm.trans hrefused
  | digits htree' hwrites hc _ hlengthy =>
      obtain rfl := Except.ok.inj (htree.symm.trans htree')
      rcases hc with rfl | hkey
      · obtain ⟨level, hx⟩ := written_of_writes hroot hwrites
        rw [writeAt_of_lengthy hlengthy] at hx
        cases hx
      · obtain ⟨s, hs⟩ := hasKeyText_of_written hroot hwrites hkey
        cases hs.symm.trans (keyText_of_lengthy hlengthy)
  | name _ hcomes hname =>
      have hlaid : (laid m).fault = none := fault_none_iff.mpr ⟨tree, htree⟩
      exact fault_eq_none_iff.mp hlaid _ ⟨_, hcomes, .name hname⟩

/-- Where all that is involved in a check has a plain text, its mismatch is written as JSON
text exactly if nothing hinders it; otherwise writing fails for the reason of something that
does. -/
theorem json_of_check (hrun : (check host d v).startedIn w = (.ok (some m), w'))
    (htexts : ∀ x, Involved d v x → ∃ s, x.plain = .ok s) :
    ((∃ s, m.json .standard = .ok s) ↔ ∀ reason, ¬ Hinders d v m reason) ∧
      ∀ reason, m.json .standard = .error reason → Hinders d v m reason := by
  have hP := spoken_of_texts htexts
  have hm : m.Within (Involved d v) := check_within hP.found (.inl .refl) (.inr .refl) hrun
  have hfails (reason : Fault) (h : m.json .standard = .error reason) : Hinders d v m reason := by
    rcases htree : m.tree with fault | tree
    · rw [json, htree] at h
      obtain rfl := Except.error.inj h
      obtain ⟨p, hp, hcomes, hname⟩ :=
        exists_name_of_unspoken hP hm (unspoken_of_fault (fault_some_iff.mpr htree))
      exact .name hp hcomes hname
    · rw [json, htree] at h
      obtain ⟨x, hwrites, hblocks⟩ := exists_blocks h
      have hgrounded := (hm.grounded hP htree).writes hP hwrites
      rcases hgrounded.blocks hP hblocks with
        ⟨hx, key, hkey, rfl, hrefused⟩ | ⟨c, hwritten, hc, hlengthy⟩
      · exact .key htree hwrites hx hkey hrefused
      · exact .digits htree hwrites hwritten hc hlengthy
  refine ⟨⟨fun ⟨s, hs⟩ reason => not_hinders hs, fun hnone => ?_⟩, hfails⟩
  rcases hjson : m.json .standard with reason | s
  · exact absurd (hfails reason hjson) (hnone reason)
  · exact ⟨s, rfl⟩

/-! ## Two mismatches -/

/-- Values of built-in types that have texts and can be counted on one hand, and what is found
in them. -/
inductive Homely : Value → Prop
  | atom {mark : Nat} {a : Atom} (hplain : fault? a.plain = none) (hshown : fault? a.shown = none) :
      Homely (.atom mark a)
  | sequence {mark : Nat} {kind : SequenceKind} {items : List Value} (hlength : items.length < 10)
      (hitems : ∀ item ∈ items, Homely item) : Homely (.sequence mark kind items)
  | mapping {mark : Nat} {kind : MappingKind} {entries : List (Value × Value)}
      (hkeys : ∀ e ∈ entries, Homely e.1) (hitems : ∀ e ∈ entries, Homely e.2) :
      Homely (.mapping mark kind entries)
  | native (n : Native) : Homely (.native n)
  | family {mark : Nat} {tag : Tag} (f : Family) : Homely (.tagged mark tag (.family f))
  | method {self : Value} {label : String} (hself : self.tellsOwner label = false) :
      Homely (.method self label)

variable {x y : Value}

theorem Homely.text (s : String) : Homely (.text s) := .atom rfl rfl

theorem Homely.null : Homely .null := .atom rfl rfl

theorem Homely.digit {n : Nat} (hn : n < 10) : Homely (.int n) := by
  have hdigits : fault? (Number.intText n) = none :=
    fault_intText_of_short (short_of_digit (by omega))
  exact .atom hdigits hdigits

theorem Homely.fault_shown (hx : Homely x) : (Wording.shown x).fault = none := by
  induction hx with
  | atom _ hshown => exact hshown
  | sequence _ _ ih =>
      rw [fault_eq]
      refine List.findSome?_eq_none_iff.mpr fun part hpart => ?_
      obtain ⟨item, hitem, rfl⟩ := List.mem_map.mp hpart
      exact ih item hitem
  | mapping _ _ ih ih' =>
      rw [fault_eq]
      refine List.findSome?_eq_none_iff.mpr fun part hpart => ?_
      obtain ⟨e, he, hpart⟩ := List.mem_flatMap.mp hpart
      simp only [List.mem_cons, List.not_mem_nil, or_false] at hpart
      rcases hpart with rfl | rfl
      · exact ih e he
      · exact ih' e he
  | native | family => exact fault_eq _
  | method hself =>
      rw [fault_eq]
      simp [ownFault, Wording.parts, ofShown, hself]

theorem Homely.exists_plain (hx : Homely x) : ∃ s, x.plain = .ok s := by
  refine fault_none_iff.mp ((fault_eq (Wording.plain x)).trans ?_)
  have hshown : firstFault [Wording.shown x] = none :=
    (firstFault_cons _ _).trans (by simp [hx.fault_shown])
  cases hx with
  | atom hplain => exact (fault_ofAtom _).symm.trans hplain
  | family => rfl
  | _ => exact hshown

/-- What a homely value has by its type is homely. -/
theorem Homely.of_typeAttribute {name : String} (hx : Homely x)
    (h : typeAttribute? x name = some y) : Homely y := by
  rcases typeAttribute_cases h with rfl | (rfl | ⟨s, rfl⟩) | ⟨-, rfl⟩
  · exact .native _
  · exact .null
  · exact .text s
  · refine .method ?_
    cases hx <;> rfl

theorem Homely.of_callableFacility {label name : String} {hasFields : Bool}
    (h : callableFacility? (some label) hasFields [] name = some y) : Homely y := by
  unfold callableFacility? at h
  split_ifs at h <;> obtain rfl := Option.some.inj h
  · exact .native _
  · exact .text _
  · exact .mapping nofun nofun
  · exact .null

/-- What is found in a homely value is homely. -/
theorem Homely.found (hx : Homely x) (hy : x.Found y) : Homely y := by
  cases hy with
  | key hentry =>
      cases hx with
      | sequence hlength =>
          obtain ⟨i, rfl, hitem⟩ := mem_positions_iff.mp hentry
          have hlt := (List.getElem?_eq_some_iff.mp hitem).1
          exact .digit (by omega)
      | mapping hkeys => exact hkeys _ hentry
      | _ => cases hentry
  | item hentry =>
      cases hx with
      | sequence _ hitems =>
          obtain ⟨i, -, hitem⟩ := mem_positions_iff.mp hentry
          exact hitems _ (List.mem_of_getElem? hitem)
      | mapping _ hitems => exact hitems _ hentry
      | _ => cases hentry
  | part hpart =>
      cases hx
      cases hpart
  | @named _ _ name h =>
      have hcases : kindAttribute? x name = some y ∨ typeAttribute? x name = some y := by
        have h' : (kindAttribute? x name).or (typeAttribute? x name) = some y := by
          cases hx <;> exact Except.ok.inj h
        exact (Option.or_eq_some_iff.mp h').imp_right And.right
      rcases hcases with hkind | htype
      · cases hx with
        | native | method => exact .of_callableFacility hkind
        | _ => cases hkind
      · exact hx.of_typeAttribute htype

theorem Homely.texts (hd : Homely d) (hv : Homely v) :
    ∀ x, Involved d v x → ∃ s, x.plain = .ok s := by
  have hleads {x y : Value} (hx : Homely x) (h : x.LeadsTo y) : Homely y := by
    induction h with
    | refl => exact hx
    | tail _ hfound ih => exact ih.found hfound
  rintro x (hx | hx)
  · exact (hleads hd hx).exists_plain
  · exact (hleads hv hx).exists_plain

/-- Accepts numbers. -/
def numeric : Value := Schema.ofFamily .number

/-- A list that holds a byte string. -/
def bytesInList : Value := .list [.atom 0 (.bytes [104, 105])]

/-- A byte string is written as its text, wherever it stands. -/
theorem json_of_check_bytes :
    (check agreeable numeric bytesInList).startedIn calm =
        (.ok (some (.incorrectType numeric bytesInList)), calm) ∧
      (∀ x, Involved numeric bytesInList x → ∃ s, x.plain = .ok s) ∧
      ∀ reason, ¬ Hinders numeric bytesInList (.incorrectType numeric bytesInList) reason := by
  have hrun : (check agreeable numeric bytesInList).startedIn calm =
      (.ok (some (.incorrectType numeric bytesInList)), calm) := rfl
  have hbytes : Homely bytesInList := .sequence (by decide) (by simpa using .atom rfl rfl)
  have htexts : ∀ x, Involved numeric bytesInList x → ∃ s, x.plain = .ok s :=
    Homely.texts (.family .number) hbytes
  exact ⟨hrun, htexts, (json_of_check hrun htexts).1.mp ⟨_, rfl⟩⟩

/-- A mapping with a tuple as its key. -/
def keyedByTuple : Value := .dict [(.tuple [.int 1, .int 2], .int 1)]

/-- A tuple is not, where it stands as a key: all that is involved has a text, and yet the
mismatch is not written. -/
theorem tuple_key_not_written :
    (check agreeable numeric keyedByTuple).startedIn calm =
        (.ok (some (.incorrectType numeric keyedByTuple)), calm) ∧
      (∀ x, Involved numeric keyedByTuple x → ∃ s, x.plain = .ok s) ∧
      (incorrectType numeric keyedByTuple).json .standard = .error (.keyNotEncodable "tuple") := by
  have hone : Homely (.int 1) := .digit (by decide)
  have htwo : Homely (.int 2) := .digit (by decide)
  have htuple : Homely (.tuple [.int 1, .int 2]) :=
    .sequence (by decide) (by simpa using ⟨hone, htwo⟩)
  have hkeyed : Homely keyedByTuple := .mapping (by simpa using htuple) (by simpa using hone)
  exact ⟨rfl, Homely.texts (.family .number) hkeyed, rfl⟩

end Mismatch

end ShapeCheck
