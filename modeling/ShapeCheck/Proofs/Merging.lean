import ShapeCheck.Proofs.Rearrangement

/-!
# Merged entries

The schema of an object with optional keys keeps its required entries, and these merged
with the optional ones.  A required key that is also optional keeps its place and the key
that is there, and takes the item of the optional entry.  Since the keys of either mapping
differ from each other, which entries come out does not depend on their order.
-/

namespace ShapeCheck.Value

variable {K : Value → Prop} {R : Value → Value → Prop} {key item : Value}
  {e o : Value × Value} {entries others rest : List (Value × Value)}

/-- An entry with the item that others have under its key, if they have one. -/
def overridden (others : List (Value × Value)) (e : Value × Value) : Value × Value :=
  (e.1, (entryAt? others e.1).elim e.2 Prod.snd)

theorem entryAt?_eq_none_iff :
    entryAt? others key = none ↔ ∀ o ∈ others, sameKey o.1 key = false := by
  simp [entryAt?]

theorem overridden_of_absent (h : ∀ o ∈ others, sameKey o.1 e.1 = false) :
    overridden others e = e := by
  rw [overridden, entryAt?_eq_none_iff.mpr h]
  rfl

theorem overridden_cons_of_same (h : sameKey o.1 e.1 = true) :
    overridden (o :: rest) e = (e.1, o.2) := by
  simp [overridden, entryAt?, h]

theorem overridden_cons_of_ne (h : sameKey o.1 e.1 = false) :
    overridden (o :: rest) e = overridden rest e := by
  simp [overridden, entryAt?, h]

theorem exists_key_of_mem_insertEntry (h : e ∈ insertEntry entries key item) :
    e.1 = key ∨ ∃ stored ∈ entries, e.1 = stored.1 := by
  induction entries with
  | nil =>
      obtain rfl := List.mem_singleton.mp h
      exact .inl rfl
  | cons head tail ih =>
      rw [insertEntry] at h
      split_ifs at h with hsame
      · rcases List.mem_cons.mp h with rfl | htail
        · exact .inr ⟨head, List.mem_cons_self, rfl⟩
        · exact .inr ⟨e, List.mem_cons_of_mem _ htail, rfl⟩
      · rcases List.mem_cons.mp h with rfl | htail
        · exact .inr ⟨e, List.mem_cons_self, rfl⟩
        · refine (ih htail).imp_right ?_
          rintro ⟨stored, hstored, hkey⟩
          exact ⟨stored, List.mem_cons_of_mem _ hstored, hkey⟩

theorem mergeEntries_cons (entries : List (Value × Value)) (o : Value × Value)
    (others : List (Value × Value)) :
    mergeEntries entries (o :: others) = mergeEntries (insertEntry entries o.1 o.2) others := rfl

theorem mergeEntries_append (entries before after : List (Value × Value)) :
    mergeEntries entries (before ++ after) = mergeEntries (mergeEntries entries before) after :=
  List.foldl_append

theorem insertEntry_of_absent (h : ∀ e ∈ entries, sameKey e.1 key = false) :
    insertEntry entries key item = entries ++ [(key, item)] := by
  induction entries with
  | nil => rfl
  | cons head tail ih =>
      rw [List.forall_mem_cons] at h
      rw [insertEntry, h.1, ih h.2]
      rfl

/-- Entries under keys of their own come after the ones that are there. -/
theorem mergeEntries_of_apart (hentries : ∀ e ∈ entries, ∀ o ∈ others, sameKey e.1 o.1 = false)
    (hothers : others.Pairwise fun o o' => sameKey o.1 o'.1 = false) :
    mergeEntries entries others = entries ++ others := by
  induction others generalizing entries with
  | nil => exact (List.append_nil entries).symm
  | cons o rest ih =>
      rw [List.pairwise_cons] at hothers
      have hinsert : insertEntry entries o.1 o.2 = entries ++ [o] :=
        insertEntry_of_absent fun e he => hentries e he o List.mem_cons_self
      rw [mergeEntries_cons, hinsert, ih ?_ hothers.2, List.append_assoc, List.singleton_append]
      intro e he r hr
      rcases List.mem_append.mp he with he | he
      · exact hentries e he r (List.mem_cons_of_mem _ hr)
      · exact List.mem_singleton.mp he ▸ hothers.1 r hr

theorem insertEntry_wellKeyed (hentries : (dict entries).WellKeyed K) (hkey : IsKey K key) :
    (dict (insertEntry entries key item)).WellKeyed K := by
  obtain ⟨hkeys, hapart⟩ := hentries
  constructor
  · intro e he
    rcases exists_key_of_mem_insertEntry he with h | ⟨stored, hstored, h⟩
    · exact h ▸ hkey
    · exact h ▸ hkeys stored hstored
  · induction hapart with
    | nil => exact List.pairwise_singleton _ _
    | @cons head tail hhead htail ih =>
        rw [List.forall_mem_cons] at hkeys
        rw [insertEntry]
        split_ifs with hsame
        · exact .cons hhead htail
        · refine .cons ?_ (ih hkeys.2)
          intro e he
          rcases exists_key_of_mem_insertEntry he with h | ⟨stored, hstored, h⟩
          · rw [h]
            exact Bool.eq_false_iff.mpr hsame
          · rw [h]
            exact hhead stored hstored

/-- A merged mapping has distinct keys, also where the merged pairs had not. -/
theorem mergeEntries_wellKeyed (hentries : (dict entries).WellKeyed K)
    (hothers : ∀ o ∈ others, IsKey K o.1) : (dict (mergeEntries entries others)).WellKeyed K := by
  induction others generalizing entries with
  | nil => exact hentries
  | cons o rest ih =>
      rw [List.forall_mem_cons] at hothers
      exact ih (insertEntry_wellKeyed hentries hothers.1) hothers.2

theorem wellKeyed_nil : (dict []).WellKeyed K := ⟨by simp, .nil⟩

/-- A mapping that is made of pairs has distinct keys. -/
theorem collectEntries_wellKeyed (hpairs : ∀ p ∈ others, IsKey K p.1) :
    (dict (collectEntries others)).WellKeyed K :=
  mergeEntries_wellKeyed wellKeyed_nil hpairs

theorem mem_or_item_of_mem_insertEntry (h : e ∈ insertEntry entries key item) :
    e ∈ entries ∨ e.2 = item := by
  induction entries with
  | nil =>
      obtain rfl := List.mem_singleton.mp h
      exact .inr rfl
  | cons head tail ih =>
      rw [insertEntry] at h
      split at h
      · rcases List.mem_cons.mp h with rfl | htail
        · exact .inr rfl
        · exact .inl (List.mem_cons_of_mem _ htail)
      · rcases List.mem_cons.mp h with rfl | htail
        · exact .inl List.mem_cons_self
        · exact (ih htail).imp_left (List.mem_cons_of_mem _)

/-- What holds of the items of both mappings holds of those of the merged one. -/
theorem forall_item_mergeEntries (P : Value → Prop) (hentries : ∀ e ∈ entries, P e.2)
    (hothers : ∀ o ∈ others, P o.2) : ∀ e ∈ mergeEntries entries others, P e.2 := by
  induction others generalizing entries with
  | nil => exact hentries
  | cons o rest ih =>
      rw [List.forall_mem_cons] at hothers
      refine @ih (insertEntry entries o.1 o.2) ?_ hothers.2
      intro e he
      rcases mem_or_item_of_mem_insertEntry he with he | hitem
      · exact hentries e he
      · exact hitem ▸ hothers.1

/-- What holds of the keys of both mappings holds of those of the merged one. -/
theorem forall_key_mergeEntries (P : Value → Prop) (hentries : ∀ e ∈ entries, P e.1)
    (hothers : ∀ o ∈ others, P o.1) : ∀ e ∈ mergeEntries entries others, P e.1 := by
  induction others generalizing entries with
  | nil => exact hentries
  | cons o rest ih =>
      rw [List.forall_mem_cons] at hothers
      refine @ih (insertEntry entries o.1 o.2) ?_ hothers.2
      intro e he
      rcases exists_key_of_mem_insertEntry he with hkey | ⟨stored, hstored, hkey⟩
      · exact hkey ▸ hothers.1
      · exact hkey ▸ hentries stored hstored

section

variable (hK : Coherent K)

include hK

/-- Storing under a key makes that key declared, and no other. -/
theorem declares_insertEntry (hkeys : ∀ e ∈ entries, IsKey K e.1) (hkey : IsKey K key)
    {other : Value} (hother : IsKey K other) :
    declares (insertEntry entries key item) other =
      (declares entries other || sameKey key other) := by
  induction entries with
  | nil => simp [insertEntry, declares]
  | cons head tail ih =>
      rw [List.forall_mem_cons] at hkeys
      rw [insertEntry]
      split_ifs with hsame
      · have hhead : sameKey head.1 other = sameKey key other :=
          hK.sameKey_congr hkeys.1 hkey hother hother hsame (hK.itself hother.1 hother.2)
        simp only [declares, List.any_cons, hhead]
        cases sameKey key other <;> simp
      · have htail := ih hkeys.2
        simp only [declares, List.any_cons] at htail ⊢
        rw [htail, Bool.or_assoc]

/-- After an entry has been stored, the remaining ones make of it what they make of the
entry that it overrides, or leave it as it is. -/
theorem map_overridden_insertEntry (hentries : (dict entries).WellKeyed K)
    (hothers : (dict (o :: rest)).WellKeyed K) :
    (insertEntry entries o.1 o.2).map (overridden rest) =
      entries.map (overridden (o :: rest)) ++ if declares entries o.1 then [] else [o] := by
  obtain ⟨hkeys, hapart⟩ := hentries
  obtain ⟨hokeys, hoapart⟩ := hothers
  rw [List.forall_mem_cons] at hokeys
  rw [List.pairwise_cons] at hoapart
  have hrest {key : Value} (hkey : IsKey K key) (hsame : sameKey key o.1 = true) :
      ∀ r ∈ rest, sameKey r.1 key = false := by
    intro r hr
    rw [Bool.eq_false_iff]
    intro hfound
    have hror := hoapart.1 r hr
    have hro := hK.sameKey_trans (hokeys.2 r hr) hkey hokeys.1 hfound hsame
    rw [hK.sameKey_symm (hokeys.2 r hr) hokeys.1 hro] at hror
    cases hror
  induction hapart with
  | nil =>
      have hself := hrest hokeys.1 (hK.itself hokeys.1.1 hokeys.1.2)
      simp [insertEntry, declares, overridden_of_absent hself]
  | @cons head tail hhead htail ih =>
      rw [List.forall_mem_cons] at hkeys
      rw [insertEntry]
      by_cases hsame : sameKey head.1 o.1 = true
      · have hoverrides := hK.sameKey_symm hkeys.1 hokeys.1 hsame
        have htails : tail.map (overridden (o :: rest)) = tail.map (overridden rest) := by
          apply List.map_congr_left
          intro e he
          apply overridden_cons_of_ne
          rw [Bool.eq_false_iff]
          intro hfound
          have hapart := hhead e he
          rw [hK.sameKey_trans hkeys.1 hokeys.1 (hkeys.2 e he) hsame hfound] at hapart
          cases hapart
        have hstored : overridden rest (head.1, o.2) = (head.1, o.2) :=
          overridden_of_absent (hrest hkeys.1 hsame)
        have hdeclared : declares (head :: tail) o.1 = true := by simp [declares, hsame]
        rw [if_pos hsame, if_pos hdeclared, List.append_nil, List.map_cons, List.map_cons, hstored,
          htails, overridden_cons_of_same hoverrides]
      · have hhead' : overridden (o :: rest) head = overridden rest head := by
          apply overridden_cons_of_ne
          rw [Bool.eq_false_iff]
          intro hfound
          exact hsame (hK.sameKey_symm hokeys.1 hkeys.1 hfound)
        have hdeclares : declares (head :: tail) o.1 = declares tail o.1 := by
          simp [declares, hsame]
        rw [if_neg hsame, List.map_cons, List.map_cons, ih hkeys.2, hhead', hdeclares,
          List.cons_append]

theorem mergeEntries_eq (hentries : (dict entries).WellKeyed K)
    (hothers : (dict others).WellKeyed K) :
    mergeEntries entries others =
      entries.map (overridden others) ++ others.filter fun o => !declares entries o.1 := by
  induction others generalizing entries with
  | nil =>
      have hstay : entries.map (overridden []) = entries := by
        apply List.map_id''
        intro e
        exact overridden_of_absent (by simp)
      simp [mergeEntries, hstay]
  | cons o rest ih =>
      have hokey : IsKey K o.1 := hothers.1 o List.mem_cons_self
      have hrest : (dict rest).WellKeyed K :=
        ⟨fun e he => hothers.1 e (List.mem_cons_of_mem _ he), (List.pairwise_cons.mp hothers.2).2⟩
      rw [mergeEntries_cons, ih (insertEntry_wellKeyed hentries hokey) hrest,
        map_overridden_insertEntry hK hentries hothers]
      have hfilter : (rest.filter fun r => !declares (insertEntry entries o.1 o.2) r.1) =
          rest.filter fun r => !declares entries r.1 := by
        apply List.filter_congr
        intro r hr
        have hapart := (List.pairwise_cons.mp hothers.2).1 r hr
        rw [declares_insertEntry hK hentries.1 hokey (hrest.1 r hr), hapart, Bool.or_false]
      rw [hfilter, List.append_assoc, List.filter_cons]
      cases declares entries o.1 <;> rfl

theorem collectEntries_eq (hentries : (dict entries).WellKeyed K) :
    collectEntries entries = entries := by
  rw [collectEntries, mergeEntries_eq hK wellKeyed_nil hentries]
  simp [declares]

end

theorem holds_of_entryAt {mark : Nat} {kind : MappingKind} (hkey : key.isHashable = true)
    (h : entryAt? entries key = some e) : (mapping mark kind entries).Holds key e.2 := by
  have hdeclared : declares entries key = true := by rw [← entryAt?_isSome, h, Option.isSome_some]
  exact ⟨by simp [hasKey, hkey, hdeclared], by simp [get, hkey, h]⟩

section

variable {entries' others' : List (Value × Value)} (hK : Coherent K)
  (hentries : (dict entries).WellKeyed K) (hentries' : (dict entries').WellKeyed K)
  (hothers : (dict others).WellKeyed K) (hothers' : (dict others').WellKeyed K)

include hK hothers hothers'

theorem SameEntries.overridden_related (h : SameEntries R others others') {e e' : Value × Value}
    (hkey : IsKey K e.1) (hkey' : IsKey K e'.1) (hcopy : IsCopy e.1 e'.1) (hitem : R e.2 e'.2) :
    R (overridden others e).2 (overridden others' e').2 := by
  have hdeclares := h.declares_eq hK hkey hkey' hcopy hothers hothers'
  rw [← entryAt?_isSome, ← entryAt?_isSome] at hdeclares
  cases hfound : entryAt? others e.1 with
  | none =>
      rw [hfound, Option.isSome_none] at hdeclares
      have hfound' := Option.not_isSome_iff_eq_none.mp (Bool.eq_false_iff.mp hdeclares.symm)
      rw [overridden, overridden, hfound, hfound']
      exact hitem
  | some o =>
      obtain ⟨held', hholds', hrelated⟩ :=
        h.exists_holds hK hkey hkey' hcopy hothers hothers' (holds_of_entryAt hkey.2 hfound)
      obtain ⟨o', hfound', rfl⟩ := exists_entryAt_of_holds hholds'
      rw [overridden, overridden, hfound, hfound']
      exact hrelated

include hentries hentries'

/-- Each entry that comes out of a merge has a partner in a merge of the same entries. -/
theorem SameEntries.exists_merged (h : SameEntries R entries entries')
    (h' : SameEntries R others others') (he : e ∈ mergeEntries entries others) :
    ∃ e' ∈ mergeEntries entries' others', IsCopy e.1 e'.1 ∧ R e.2 e'.2 := by
  rw [mergeEntries_eq hK hentries hothers, List.mem_append] at he
  rw [mergeEntries_eq hK hentries' hothers']
  rcases he with he | he
  · obtain ⟨a, ha, rfl⟩ := List.mem_map.mp he
    obtain ⟨a', ha', hcopy, hitem⟩ := h.forth a ha
    refine ⟨overridden others' a', List.mem_append_left _ (List.mem_map_of_mem ha'), hcopy, ?_⟩
    exact h'.overridden_related hK hothers hothers' (hentries.1 a ha) (hentries'.1 a' ha') hcopy
      hitem
  · obtain ⟨he, hnew⟩ := List.mem_filter.mp he
    obtain ⟨e', he', hcopy, hitem⟩ := h'.forth e he
    refine ⟨e', List.mem_append_right _ (List.mem_filter.mpr ⟨he', ?_⟩), hcopy, hitem⟩
    rw [← h.declares_eq hK (hothers.1 e he) (hothers'.1 e' he') hcopy hentries hentries']
    exact hnew

theorem SameEntries.merge (h : SameEntries R entries entries')
    (h' : SameEntries R others others') :
    SameEntries R (mergeEntries entries others) (mergeEntries entries' others') := by
  constructor
  · intro e he
    exact h.exists_merged hK hentries hentries' hothers hothers' h' he
  · intro e' he'
    obtain ⟨e, he, hcopy, hitem⟩ :=
      h.symm.exists_merged hK hentries' hentries hothers' hothers h'.symm he'
    exact ⟨e, he, hcopy.symm, hitem⟩

end

/-- Object schemas with the same required and the same optional entries are alike. -/
theorem AlikeSchema.optionalOf {required required' optional optional' : List (Value × Value)}
    (hK : Coherent K) (hrequired : (dict required).WellKeyed K)
    (hrequired' : (dict required').WellKeyed K) (hoptional : (dict optional).WellKeyed K)
    (hoptional' : (dict optional').WellKeyed K)
    (h : SameEntries AlikeSchema required required')
    (h' : SameEntries AlikeSchema optional optional') :
    AlikeSchema (Schema.optionalOf required optional) (Schema.optionalOf required' optional') := by
  simp only [Schema.optionalOf, collectEntries_eq hK hrequired, collectEntries_eq hK hrequired']
  exact .optional (fun _ _ halike => halike) h
    (h.merge hK hrequired hrequired' hoptional hoptional' h')

end ShapeCheck.Value
