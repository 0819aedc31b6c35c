import ShapeCheck.Proofs.Merging
import ShapeCheck.Proofs.TextKeys
import ShapeCheck.Schema.Outline

/-!
# Keys in an outline

An outline lays a shape out entry by entry.  A text, a number or a constant is its own key
there, and any other key is told by its plain text, so that two keys may be told alike: the
wildcard and the text that spells it, or a tuple and the text of it.  Of two entries whose keys
are told alike the outline keeps one.

Main statement: nothing else is lost.  The outline of a shape has an entry for each of its
keys, in order, exactly if no two of them are told by one text (`outline_keeps_entries`).
-/

namespace ShapeCheck.Value

variable {K : Value → Prop} {key key' laidKey laidKey' t : Value}
  {entries others laid laid' : List (Value × Value)} {mark : Nat} {kind : MappingKind} {tag : Tag}

/-! ## How keys are told -/

/-- A key is told as it is, or by its plain text. -/
theorem outlineKey_cases (h : outlineKey key = .ok laidKey) :
    laidKey = key ∨ ∃ s, laidKey = text s := by
  unfold outlineKey at h
  split at h
  case h_10 =>
    rcases hplain : key.plain with fault | s
    · rw [hplain] at h
      cases h
    · rw [hplain] at h
      exact .inr ⟨s, (Except.ok.inj h).symm⟩
  all_goals exact .inl (Except.ok.inj h).symm

/-- Two keys are told by one text. -/
def ToldAlike (key key' : Value) : Prop :=
  ∃ laidKey laidKey' s, outlineKey key = .ok laidKey ∧ outlineKey key' = .ok laidKey' ∧
    laidKey.asText? = some s ∧ laidKey'.asText? = some s

section

variable (hK : Coherent K) (hkey : IsKey K key) (hkey' : IsKey K key')
  (hapart : sameKey key key' = false)

include hkey in
theorem isKey_outlineKey (hK : Coherent K) (h : outlineKey key = .ok laidKey) :
    IsKey K laidKey := by
  rcases outlineKey_cases h with rfl | ⟨s, rfl⟩
  · exact hkey
  · exact ⟨hK.names s, rfl⟩

include hK hkey hkey' hapart

/-- Distinct keys are laid out under the same key only if they are told by one text. -/
theorem sameKey_outlineKey_iff (h : outlineKey key = .ok laidKey)
    (h' : outlineKey key' = .ok laidKey') :
    sameKey laidKey laidKey' = true ↔ ToldAlike key key' := by
  constructor
  · intro hsame
    cases htext : laidKey'.asText? with
    | some s => exact ⟨laidKey, laidKey', s, h, h', (sameKey_iff_asText htext).mp hsame, htext⟩
    | none =>
        -- A key that is not laid out as a text is laid out as it is.
        rcases outlineKey_cases h' with rfl | ⟨s, rfl⟩
        · rcases outlineKey_cases h with rfl | ⟨s, rfl⟩
          · rw [hapart] at hsame
            cases hsame
          · have hsymm := hK.sameKey_symm ⟨hK.names s, rfl⟩ hkey' hsame
            rw [(sameKey_iff_asText rfl).mp hsymm] at htext
            cases htext
        · cases htext
  · rintro ⟨laidKey₁, laidKey₁', s, h₁, h₁', htext, htext'⟩
    obtain rfl := Except.ok.inj (h.symm.trans h₁)
    obtain rfl := Except.ok.inj (h'.symm.trans h₁')
    exact (sameKey_iff_asText htext').mpr htext

omit hK hkey hkey' in
/-- Distinct keys that are told as they are are not told alike. -/
theorem not_toldAlike_of_kept (h : outlineKey key = .ok key) (h' : outlineKey key' = .ok key') :
    ¬ ToldAlike key key' := by
  rintro ⟨laidKey, laidKey', s, h₁, h₁', htext, htext'⟩
  obtain rfl := Except.ok.inj (h.symm.trans h₁)
  obtain rfl := Except.ok.inj (h'.symm.trans h₁')
  rw [(sameKey_iff_asText htext').mpr htext] at hapart
  cases hapart

end

/-! ## Laying entries out -/

/-- Entries are laid out one by one: each under the key that tells its own, with the outline of
its item. -/
def EntryByEntry : (entries laid : List (Value × Value)) → Prop :=
  List.Forall₂ fun e l => outlineKey e.1 = .ok l.1 ∧ e.2.outline = .ok l.2

theorem outlineEntries_eq_ok_iff :
    outlineEntries entries = .ok laid ↔ EntryByEntry entries laid := by
  induction entries generalizing laid with
  | nil => cases laid <;> simp [outlineEntries, EntryByEntry]
  | cons head tail ih =>
      obtain ⟨key, item⟩ := head
      constructor
      · intro h
        obtain ⟨laidKey, hkey, h⟩ := bind_ok_iff.mp h
        obtain ⟨laidItem, hitem, h⟩ := bind_ok_iff.mp h
        obtain ⟨laidTail, htail, h⟩ := bind_ok_iff.mp h
        obtain rfl := Except.ok.inj h
        exact .cons ⟨hkey, hitem⟩ (ih.mp htail)
      · rintro (_ | ⟨⟨hkey, hitem⟩, htail⟩)
        rw [outlineEntries, hkey, hitem, ih.mpr htail]
        rfl

/-- Entries are laid out if each of their keys can be told and each item has an outline. -/
theorem exists_entryByEntry_iff :
    (∃ laid, EntryByEntry entries laid) ↔
      ∀ e ∈ entries, (∃ laidKey, outlineKey e.1 = .ok laidKey) ∧ ∃ t, e.2.outline = .ok t := by
  constructor
  · rintro ⟨laid, hlaid⟩ e he
    obtain ⟨l, -, hkey, hitem⟩ := Check.exists_of_forall₂ hlaid he
    exact ⟨⟨l.1, hkey⟩, l.2, hitem⟩
  · intro h
    induction entries with
    | nil => exact ⟨[], .nil⟩
    | cons head tail ih =>
        rw [List.forall_mem_cons] at h
        obtain ⟨⟨⟨laidKey, hkey⟩, t, hitem⟩, htail⟩ := h
        obtain ⟨laid, hlaid⟩ := ih htail
        exact ⟨(laidKey, t) :: laid, .cons ⟨hkey, hitem⟩ hlaid⟩

theorem outline_mapping_eq_ok_iff :
    (mapping mark kind entries).outline = .ok t ↔
      ∃ laid, EntryByEntry entries laid ∧ t = structureOutline (dict (collectEntries laid)) := by
  simp only [← outlineEntries_eq_ok_iff]
  constructor
  · intro h
    obtain ⟨laid, hlaid, h⟩ := bind_ok_iff.mp h
    exact ⟨laid, hlaid, (Except.ok.inj h).symm⟩
  · rintro ⟨laid, hlaid, rfl⟩
    rw [outline, hlaid]
    rfl

theorem outline_optional_eq_ok_iff :
    (tagged mark tag (.optional entries others)).outline = .ok t ↔
      ∃ laid laid', EntryByEntry entries laid ∧ EntryByEntry others laid' ∧
        t = partsOutline tag [("required", dict (collectEntries laid)),
          ("optional", dict (collectEntries laid'))] := by
  simp only [← outlineEntries_eq_ok_iff]
  constructor
  · intro h
    obtain ⟨laid, hlaid, h⟩ := bind_ok_iff.mp h
    obtain ⟨laid', hlaid', h⟩ := bind_ok_iff.mp h
    exact ⟨laid, laid', hlaid, hlaid', (Except.ok.inj h).symm⟩
  · rintro ⟨laid, laid', hlaid, hlaid', rfl⟩
    rw [outline, outlineForm, hlaid, hlaid']
    rfl

theorem pairwise_iff_of_forall₂ {α β : Type} {R : α → β → Prop} {P : α → α → Prop}
    {Q : β → β → Prop} {as : List α} {bs : List β} (h : List.Forall₂ R as bs)
    (hPQ : as.Pairwise fun a a' => ∀ b b', R a b → R a' b' → (P a a' ↔ Q b b')) :
    as.Pairwise P ↔ bs.Pairwise Q := by
  induction h with
  | nil => simp
  | @cons a b as bs hab htail ih =>
      rw [List.pairwise_cons] at hPQ
      rw [List.pairwise_cons, List.pairwise_cons, ih hPQ.2]
      refine and_congr_left fun _ => ⟨fun hall b' hb' => ?_, fun hall a' ha' => ?_⟩
      · obtain ⟨a', ha', hab'⟩ := Check.exists_of_forall₂ htail.flip hb'
        exact (hPQ.1 a' ha' b b' hab hab').mp (hall a' ha')
      · obtain ⟨b', hb', hab'⟩ := Check.exists_of_forall₂ htail ha'
        exact (hPQ.1 a' ha' b b' hab hab').mpr (hall b' hb')

section

variable (hK : Coherent K) (hentries : (dict entries).WellKeyed K)

include hK hentries

/-- Laid entries come under distinct keys if no two keys are told alike. -/
theorem toldApart_iff (hlaid : EntryByEntry entries laid) :
    entries.Pairwise (fun e e' => ¬ ToldAlike e.1 e'.1) ↔
      laid.Pairwise fun l l' => sameKey l.1 l'.1 = false := by
  apply pairwise_iff_of_forall₂ hlaid
  refine hentries.2.imp_of_mem ?_
  rintro e e' he he' hapart l l' ⟨hkey, -⟩ ⟨hkey', -⟩
  rw [← Bool.not_eq_true]
  exact not_congr
    (sameKey_outlineKey_iff hK (hentries.1 e he) (hentries.1 e' he') hapart hkey hkey').symm

theorem collectEntries_laid_iff (hlaid : EntryByEntry entries laid) :
    collectEntries laid = laid ↔ entries.Pairwise fun e e' => ¬ ToldAlike e.1 e'.1 := by
  rw [toldApart_iff hK hentries hlaid]
  constructor
  · intro hkept
    have hkeys : ∀ l ∈ laid, IsKey K l.1 := by
      intro l hl
      obtain ⟨e, he, hkey, -⟩ := Check.exists_of_forall₂ hlaid.flip hl
      exact isKey_outlineKey (hentries.1 e he) hK hkey
    have hcollected : (dict (collectEntries laid)).WellKeyed K :=
      collectEntries_wellKeyed hkeys
    rw [hkept] at hcollected
    exact hcollected.2
  · exact mergeEntries_of_apart (by simp)

/-- The outlines of mappings and of object schemas are laid out entry by entry, and entries are
kept as they are laid out exactly if no two keys are told alike, as it is with keys that are
told as they are. -/
theorem outline_keeps_entries :
    (∀ mark kind t, (mapping mark kind entries).outline = .ok t ↔
      ∃ laid, EntryByEntry entries laid ∧ t = structureOutline (dict (collectEntries laid))) ∧
    (∀ mark tag others t, (tagged mark tag (.optional entries others)).outline = .ok t ↔
      ∃ laid laid', EntryByEntry entries laid ∧ EntryByEntry others laid' ∧
        t = partsOutline tag [("required", dict (collectEntries laid)),
          ("optional", dict (collectEntries laid'))]) ∧
    ((∃ laid, EntryByEntry entries laid) ↔
      ∀ e ∈ entries, (∃ laidKey, outlineKey e.1 = .ok laidKey) ∧ ∃ t, e.2.outline = .ok t) ∧
    (∀ laid, EntryByEntry entries laid →
      (collectEntries laid = laid ↔ entries.Pairwise fun e e' => ¬ ToldAlike e.1 e'.1)) ∧
    ((∀ e ∈ entries, outlineKey e.1 = .ok e.1) →
      entries.Pairwise fun e e' => ¬ ToldAlike e.1 e'.1) := by
  refine ⟨fun _ _ _ => outline_mapping_eq_ok_iff, fun _ _ _ _ => outline_optional_eq_ok_iff,
    exists_entryByEntry_iff, fun _ => collectEntries_laid_iff hK hentries, fun hkept => ?_⟩
  refine hentries.2.imp_of_mem ?_
  intro e e' he he' hapart
  exact not_toldAlike_of_kept hapart (hkept e he) (hkept e' he')

end

/-- A text for all keys but one, which has a number. -/
def textsButOne : List (Value × Value) :=
  [(wildcard, Schema.ofFamily .string), (text "a", Schema.ofFamily .number)]

/-- The wildcard is kept next to a text that does not spell it. -/
theorem outline_keeps_entries_wildcard :
    EntryByEntry textsButOne
        [(text "[DefaultKey]", tagOutline .string), (text "a", tagOutline .number)] ∧
      textsButOne.Pairwise fun e e' => ¬ ToldAlike e.1 e'.1 := by
  have hlaid : EntryByEntry textsButOne
      [(text "[DefaultKey]", tagOutline .string), (text "a", tagOutline .number)] :=
    .cons ⟨rfl, rfl⟩ (.cons ⟨rfl, rfl⟩ .nil)
  have hkeyed : (dict textsButOne).WellKeyed (Stored fun _ => .null) :=
    ⟨List.forall_mem_cons.mpr ⟨⟨.atom, rfl⟩, List.forall_mem_singleton.mpr ⟨.atom, rfl⟩⟩, by decide⟩
  exact ⟨hlaid, ((outline_keeps_entries (stored_coherent fun _ => .null) hkeyed).2.2.2.1 _ hlaid).mp
    rfl⟩

/-- The wildcard and the text that spells it are distinct keys, and one outline keeps only one
entry for both; so it is with the empty tuple and the text of it. -/
theorem entry_lost :
    sameKey wildcard (text "[DefaultKey]") = false ∧
      (dict [(wildcard, Schema.ofFamily .string),
          (text "[DefaultKey]", Schema.ofFamily .number)]).outline =
        .ok (structureOutline (dict [(text "[DefaultKey]", tagOutline .number)])) ∧
      sameKey (tuple []) (text "()") = false ∧
      (dict [(tuple [], Schema.ofFamily .string),
          (text "()", Schema.ofFamily .number)]).outline =
        .ok (structureOutline (dict [(text "()", tagOutline .number)])) :=
  ⟨rfl, rfl, rfl, rfl⟩

end ShapeCheck.Value
