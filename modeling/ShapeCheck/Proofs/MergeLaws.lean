import Mathlib.Data.List.Induction
import ShapeCheck.Proofs.Relaxing
import ShapeCheck.Value.Apply

/-!
# Laws of merging

Merging stores one entry after another, so that a key keeps the place and the form in which
it first came up while its item is the last one that was stored.  What is merged into what
first makes no difference (`mergeEntries_assoc`), and neither does merging once more
(`mergeEntries_merged`).  The keys that come out are those that went in, without the ones that
came up before (`map_fst_mergeEntries`).
-/

namespace ShapeCheck.Value

variable {K : Value → Prop} {key key' item item' : Value} {e : Value × Value}
  {entries others rest pairs : List (Value × Value)}

/-! ## Keys -/

/-- Keys with a further one, unless it is among them. -/
def withKey (keys : List Value) (key : Value) : List Value :=
  if keys.any (sameKey · key) then keys else keys ++ [key]

theorem map_fst_insertEntry :
    (insertEntry entries key item).map Prod.fst = withKey (entries.map Prod.fst) key := by
  induction entries with
  | nil => rfl
  | cons head tail ih =>
      rw [insertEntry, withKey, List.map_cons, List.any_cons]
      cases hsame : sameKey head.1 key with
      | true => simp
      | false =>
          rw [if_neg Bool.false_ne_true, List.map_cons, ih, withKey, Bool.false_or]
          split <;> rfl

/-- Storing entries keeps the keys that are there and adds those that are not, in order. -/
theorem map_fst_mergeEntries :
    (mergeEntries entries others).map Prod.fst =
      (others.map Prod.fst).foldl withKey (entries.map Prod.fst) := by
  induction others generalizing entries with
  | nil => rfl
  | cons o rest ih =>
      rw [mergeEntries_cons, ih, map_fst_insertEntry]
      rfl

theorem map_fst_collectEntries :
    (collectEntries pairs).map Prod.fst = distinct (pairs.map Prod.fst) :=
  map_fst_mergeEntries

/-! ## Storing one entry before or after others -/

theorem mergeEntries_concat (entries others : List (Value × Value)) (o : Value × Value) :
    mergeEntries entries (others ++ [o]) = insertEntry (mergeEntries entries others) o.1 o.2 :=
  mergeEntries_append entries others [o]

theorem isKey_of_mem_insertEntry (hentries : ∀ e ∈ entries, IsKey K e.1) (hkey : IsKey K key) :
    ∀ e ∈ insertEntry entries key item, IsKey K e.1 := by
  intro e he
  rcases exists_key_of_mem_insertEntry he with h | ⟨stored, hstored, h⟩
  · exact h ▸ hkey
  · exact h ▸ hentries stored hstored

section

variable (hK : Coherent K)

include hK

/-- Of two entries that are stored under one key the second counts. -/
theorem insertEntry_insertEntry_of_same (hentries : ∀ e ∈ entries, IsKey K e.1)
    (hkey : IsKey K key) (hkey' : IsKey K key') (hsame : sameKey key key' = true) :
    insertEntry (insertEntry entries key item) key' item' = insertEntry entries key item' := by
  induction entries with
  | nil => simp [insertEntry, hsame]
  | cons head tail ih =>
      rw [List.forall_mem_cons] at hentries
      by_cases hhead : sameKey head.1 key = true
      · have hhead' := hK.sameKey_trans hentries.1 hkey hkey' hhead hsame
        simp [insertEntry, hhead, hhead']
      · have hhead' : ¬ sameKey head.1 key' = true :=
          fun h => hhead (hK.sameKey_of_right hentries.1 hkey hkey' h hsame)
        simp [insertEntry, hhead, hhead', ih hentries.2]

/-- An entry that only replaces an item can be stored before or after one under another
key. -/
theorem insertEntry_comm (hentries : ∀ e ∈ entries, IsKey K e.1) (hkey : IsKey K key)
    (hkey' : IsKey K key') (hapart : sameKey key' key = false)
    (hdeclared : declares entries key = true) :
    insertEntry (insertEntry entries key item) key' item' =
      insertEntry (insertEntry entries key' item') key item := by
  induction entries with
  | nil => cases hdeclared
  | cons head tail ih =>
      rw [List.forall_mem_cons] at hentries
      by_cases hhead : sameKey head.1 key = true
      · have hhead' : ¬ sameKey head.1 key' = true := by
          intro h
          rw [hK.sameKey_of_left hkey' hkey hentries.1 h hhead] at hapart
          cases hapart
        simp [insertEntry, hhead, hhead']
      · have htail : declares tail key = true := by simpa [declares, hhead] using hdeclared
        by_cases hhead' : sameKey head.1 key' = true
        · simp [insertEntry, hhead, hhead']
        · simp [insertEntry, hhead, hhead', ih hentries.2 htail]

/-- So it can be stored before or after any entries under other keys. -/
theorem insertEntry_mergeEntries_comm (hentries : ∀ e ∈ entries, IsKey K e.1)
    (hrest : ∀ r ∈ rest, IsKey K r.1) (hkey : IsKey K key)
    (hapart : ∀ r ∈ rest, sameKey r.1 key = false) (hdeclared : declares entries key = true) :
    insertEntry (mergeEntries entries rest) key item =
      mergeEntries (insertEntry entries key item) rest := by
  induction rest generalizing entries with
  | nil => rfl
  | cons r rest ih =>
      rw [List.forall_mem_cons] at hrest hapart
      have hstored : ∀ e ∈ insertEntry entries r.1 r.2, IsKey K e.1 :=
        isKey_of_mem_insertEntry hentries hrest.1
      have hdeclared' : declares (insertEntry entries r.1 r.2) key = true := by
        rw [declares_insertEntry hK hentries hrest.1 hkey, hdeclared, Bool.true_or]
      have hcomm : insertEntry (insertEntry entries key item) r.1 r.2 =
          insertEntry (insertEntry entries r.1 r.2) key item :=
        insertEntry_comm hK hentries hkey hrest.1 hapart.1 hdeclared
      calc insertEntry (mergeEntries entries (r :: rest)) key item
          = insertEntry (mergeEntries (insertEntry entries r.1 r.2) rest) key item := by
            rw [mergeEntries_cons]
        _ = mergeEntries (insertEntry (insertEntry entries r.1 r.2) key item) rest :=
            ih hstored hrest.2 hapart.2 hdeclared'
        _ = mergeEntries (insertEntry (insertEntry entries key item) r.1 r.2) rest := by
            rw [hcomm]

/-- What is stored among others before they are merged might as well be stored afterwards. -/
theorem mergeEntries_insertEntry (hentries : ∀ e ∈ entries, IsKey K e.1)
    (hothers : (dict others).WellKeyed K) (hkey : IsKey K key) :
    mergeEntries entries (insertEntry others key item) =
      insertEntry (mergeEntries entries others) key item := by
  obtain ⟨hokeys, hoapart⟩ := hothers
  induction others generalizing entries with
  | nil => rfl
  | cons o rest ih =>
      rw [List.forall_mem_cons] at hokeys
      rw [List.pairwise_cons] at hoapart
      have hstored : ∀ e ∈ insertEntry entries o.1 o.2, IsKey K e.1 :=
        isKey_of_mem_insertEntry hentries hokeys.1
      by_cases hsame : sameKey o.1 key = true
      · have hrest : ∀ r ∈ rest, sameKey r.1 key = false := by
          intro r hr
          rw [Bool.eq_false_iff]
          intro hfound
          have happart := hoapart.1 r hr
          rw [hK.sameKey_of_right hokeys.1 (hokeys.2 r hr) hkey hsame hfound] at happart
          cases happart
        have hdeclared : declares (insertEntry entries o.1 o.2) key = true := by
          rw [declares_insertEntry hK hentries hokeys.1 hkey, hsame, Bool.or_true]
        calc mergeEntries entries (insertEntry (o :: rest) key item)
            = mergeEntries (insertEntry entries o.1 item) rest := by
              rw [insertEntry, if_pos hsame]
              rfl
          _ = mergeEntries (insertEntry (insertEntry entries o.1 o.2) key item) rest := by
              rw [insertEntry_insertEntry_of_same hK hentries hokeys.1 hkey hsame]
          _ = insertEntry (mergeEntries (insertEntry entries o.1 o.2) rest) key item :=
              (insertEntry_mergeEntries_comm hK hstored hokeys.2 hkey hrest hdeclared).symm
          _ = insertEntry (mergeEntries entries (o :: rest)) key item := rfl
      · calc mergeEntries entries (insertEntry (o :: rest) key item)
            = mergeEntries (insertEntry entries o.1 o.2) (insertEntry rest key item) := by
              rw [insertEntry, if_neg hsame]
              rfl
          _ = insertEntry (mergeEntries (insertEntry entries o.1 o.2) rest) key item :=
              ih hstored hokeys.2 hoapart.2
          _ = insertEntry (mergeEntries entries (o :: rest)) key item := rfl

/-! ## Merging in any grouping -/

/-- It makes no difference which of three lists of entries are merged first. -/
theorem mergeEntries_assoc (hentries : ∀ e ∈ entries, IsKey K e.1)
    (hothers : (dict others).WellKeyed K) (hrest : ∀ r ∈ rest, IsKey K r.1) :
    mergeEntries entries (mergeEntries others rest) =
      mergeEntries (mergeEntries entries others) rest := by
  induction rest using List.reverseRecOn with
  | nil => rfl
  | append_singleton rest r ih =>
      rw [List.forall_mem_append] at hrest
      have hr : IsKey K r.1 := hrest.2 r (List.mem_singleton_self r)
      have hmerged : (dict (mergeEntries others rest)).WellKeyed K :=
        mergeEntries_wellKeyed hothers hrest.1
      calc mergeEntries entries (mergeEntries others (rest ++ [r]))
          = mergeEntries entries (insertEntry (mergeEntries others rest) r.1 r.2) := by
            rw [mergeEntries_concat]
        _ = insertEntry (mergeEntries entries (mergeEntries others rest)) r.1 r.2 :=
            mergeEntries_insertEntry hK hentries hmerged hr
        _ = insertEntry (mergeEntries (mergeEntries entries others) rest) r.1 r.2 := by
            rw [ih hrest.1]
        _ = mergeEntries (mergeEntries entries others) (rest ++ [r]) := by
            rw [mergeEntries_concat]

/-- A mapping that is made of pairs can be merged instead of the pairs. -/
theorem mergeEntries_collectEntries (hentries : ∀ e ∈ entries, IsKey K e.1)
    (hpairs : ∀ p ∈ pairs, IsKey K p.1) :
    mergeEntries entries (collectEntries pairs) = mergeEntries entries pairs :=
  mergeEntries_assoc hK hentries wellKeyed_nil hpairs

/-- Merging groups of pairs, each of them made a mapping first, is merging all pairs. -/
theorem mergeEntries_groups {groups : List (List (Value × Value))}
    (hentries : ∀ e ∈ entries, IsKey K e.1) (hgroups : ∀ pairs ∈ groups, ∀ p ∈ pairs, IsKey K p.1) :
    mergeEntries entries (groups.map collectEntries).flatten =
      mergeEntries entries groups.flatten := by
  induction groups generalizing entries with
  | nil => rfl
  | cons pairs groups ih =>
      rw [List.forall_mem_cons] at hgroups
      have hmerged : ∀ e ∈ mergeEntries entries pairs, IsKey K e.1 :=
        forall_key_mergeEntries (IsKey K) hentries hgroups.1
      rw [List.map_cons, List.flatten_cons, List.flatten_cons, mergeEntries_append,
        mergeEntries_append, mergeEntries_collectEntries hK hentries hgroups.1,
        ih hmerged hgroups.2]

/-- Merged entries declare what either of the lists declares. -/
theorem declares_mergeEntries (hentries : ∀ e ∈ entries, IsKey K e.1)
    (hothers : ∀ o ∈ others, IsKey K o.1) (hkey : IsKey K key) :
    declares (mergeEntries entries others) key =
      (declares entries key || declares others key) := by
  induction others generalizing entries with
  | nil => exact (Bool.or_false _).symm
  | cons o rest ih =>
      rw [List.forall_mem_cons] at hothers
      have hstored : ∀ e ∈ insertEntry entries o.1 o.2, IsKey K e.1 :=
        isKey_of_mem_insertEntry hentries hothers.1
      calc declares (mergeEntries entries (o :: rest)) key
          = declares (mergeEntries (insertEntry entries o.1 o.2) rest) key := rfl
        _ = (declares (insertEntry entries o.1 o.2) key || declares rest key) :=
            ih hstored hothers.2
        _ = ((declares entries key || sameKey o.1 key) || declares rest key) := by
            rw [declares_insertEntry hK hentries hothers.1 hkey]
        _ = (declares entries key || declares (o :: rest) key) := by
            rw [Bool.or_assoc]
            rfl

/-! ## Merging once more -/

variable (hentries : (dict entries).WellKeyed K)

include hentries

theorem overridden_self (he : e ∈ entries) : overridden entries e = e := by
  have hkey := hentries.1 e he
  have hholds := holds_of_sameKey hK hentries he hkey (hK.itself hkey.1 hkey.2)
  obtain ⟨o, hfound, hitem⟩ := exists_entryAt_of_holds hholds
  rw [overridden, hfound]
  exact Prod.ext rfl hitem

/-- Entries do not change when they are stored again. -/
theorem mergeEntries_self : mergeEntries entries entries = entries := by
  have hmap : entries.map (overridden entries) = entries := by
    rw [List.map_congr_left fun e he => overridden_self hK hentries he, List.map_id']
  have hfilter : (entries.filter fun e => !declares entries e.1) = [] := by
    rw [List.filter_eq_nil_iff]
    intro e he
    have hkey := hentries.1 e he
    have hdeclared : declares entries e.1 = true :=
      List.any_eq_true.mpr ⟨e, he, hK.itself hkey.1 hkey.2⟩
    simp [hdeclared]
  rw [mergeEntries_eq hK hentries hentries, hmap, hfilter, List.append_nil]

/-- What comes of a merge is merged into the first list to no further effect. -/
theorem mergeEntries_merged (hothers : ∀ o ∈ others, IsKey K o.1) :
    mergeEntries entries (mergeEntries entries others) = mergeEntries entries others := by
  rw [mergeEntries_assoc hK hentries.1 hentries hothers, mergeEntries_self hK hentries]

end

end ShapeCheck.Value
