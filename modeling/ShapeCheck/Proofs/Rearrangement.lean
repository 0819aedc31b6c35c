import ShapeCheck.Proofs.Inert

/-!
# Values in another arrangement

A sequence may be kept as a list or as a tuple, and a mapping in one of several kinds and
in any order of its entries.  Two values are alike if they differ in no more than this, in
any of their parts, and two schemas may also differ so in the parts of tagged ones.

What can be asked of a container does not depend on how it is arranged: it has the same
keys, and alike values under them.  Whether a value conforms to a schema without predicates
does not depend on the arrangement of either.
-/

namespace ShapeCheck

namespace Value

variable {K : Value → Prop} {R S : Value → Value → Prop} {v v' key key' held : Value}
  {a a' b b' : Value} {e' : Value × Value}

/-- One and the same value. -/
def IsCopy (a b : Value) : Prop := a = b ∨ a.withMark 0 = b.withMark 0 ∧ identical a b = true

/-- Entries under the same keys with related items, in any order. -/
structure SameEntries (R : Value → Value → Prop) (entries entries' : List (Value × Value)) :
    Prop where
  forth : ∀ e ∈ entries, ∃ e' ∈ entries', IsCopy e.1 e'.1 ∧ R e.2 e'.2
  back : ∀ e' ∈ entries', ∃ e ∈ entries, IsCopy e.1 e'.1 ∧ R e.2 e'.2

/-- One value, or two containers in different arrangements with related parts. -/
inductive Rearranged (R : Value → Value → Prop) : Value → Value → Prop
  | same (v : Value) : Rearranged R v v
  | atom {m n : Nat} {a : Atom} : Rearranged R (atom m a) (atom n a)
  | sequence {m n : Nat} {kind kind' : SequenceKind} {items items' : List Value}
      (hitems : List.Forall₂ R items items') :
      Rearranged R (sequence m kind items) (sequence n kind' items')
  | mapping {m n : Nat} {kind kind' : MappingKind} {entries entries' : List (Value × Value)}
      (hentries : SameEntries R entries entries') :
      Rearranged R (mapping m kind entries) (mapping n kind' entries')

/-- Values that differ in the arrangement of their containers. -/
inductive Alike : Value → Value → Prop
  | intro {R : Value → Value → Prop} {v v' : Value} (hR : ∀ x y, R x y → Alike x y)
      (h : Rearranged R v v') : Alike v v'

/-- Schemas that differ in the arrangement of their containers, which may be shapes or the
parts of tagged schemas. -/
inductive AlikeSchema : Value → Value → Prop
  | intro {R : Value → Value → Prop} {d d' : Value} (hR : ∀ x y, R x y → AlikeSchema x y)
      (h : Rearranged R d d') : AlikeSchema d d'
  | array {m n : Nat} {tag : Tag} {element element' : Value}
      (h : AlikeSchema element element') :
      AlikeSchema (tagged m tag (.array element)) (tagged n tag (.array element'))
  | record {m n : Nat} {tag : Tag} {schema schema' : Value} (h : AlikeSchema schema schema') :
      AlikeSchema (tagged m tag (.record schema)) (tagged n tag (.record schema'))
  | optional {R : Value → Value → Prop} {m n : Nat} {tag : Tag}
      {own own' others others' : List (Value × Value)} (hR : ∀ x y, R x y → AlikeSchema x y)
      (hown : SameEntries R own own') (hothers : SameEntries R others others') :
      AlikeSchema (tagged m tag (.optional own others)) (tagged n tag (.optional own' others'))
  | union {R : Value → Value → Prop} {m n : Nat} {tag : Tag} {schemas schemas' : List Value}
      (hR : ∀ x y, R x y → AlikeSchema x y) (h : List.Forall₂ R schemas schemas') :
      AlikeSchema (tagged m tag (.union schemas)) (tagged n tag (.union schemas'))

/-! ## Laws of rearrangement -/

/-- The order of entries makes no difference. -/
theorem SameEntries.of_perm (hR : ∀ x, R x x) {entries entries' : List (Value × Value)}
    (h : entries.Perm entries') : SameEntries R entries entries' where
  forth e he := ⟨e, h.mem_iff.mp he, .inl rfl, hR e.2⟩
  back e he := ⟨e, h.mem_iff.mpr he, .inl rfl, hR e.2⟩

theorem SameEntries.refl (hR : ∀ x, R x x) (entries : List (Value × Value)) :
    SameEntries R entries entries :=
  .of_perm hR (.refl entries)

theorem SameEntries.mono (hRS : ∀ x y, R x y → S x y) {entries entries' : List (Value × Value)}
    (h : SameEntries R entries entries') : SameEntries S entries entries' := by
  constructor
  · intro e he
    obtain ⟨e', he', hcopy, hitem⟩ := h.forth e he
    exact ⟨e', he', hcopy, hRS _ _ hitem⟩
  · intro e' he'
    obtain ⟨e, he, hcopy, hitem⟩ := h.back e' he'
    exact ⟨e, he, hcopy, hRS _ _ hitem⟩

theorem Rearranged.mono (hRS : ∀ x y, R x y → S x y) (h : Rearranged R v v') :
    Rearranged S v v' := by
  cases h with
  | same => exact .same v
  | atom => exact .atom
  | sequence hitems => exact .sequence (hitems.imp hRS)
  | mapping hentries => exact .mapping (hentries.mono hRS)

theorem IsCopy.symm (h : IsCopy a b) : IsCopy b a := by
  rcases h with rfl | ⟨hcontent, hidentical⟩
  · exact .inl rfl
  · exact .inr ⟨hcontent.symm, identical_symm hcontent hidentical⟩

theorem SameEntries.symm {entries entries' : List (Value × Value)}
    (h : SameEntries R entries entries') : SameEntries (fun x y => R y x) entries' entries := by
  constructor
  · intro e' he'
    obtain ⟨e, he, hcopy, hitem⟩ := h.back e' he'
    exact ⟨e, he, hcopy.symm, hitem⟩
  · intro e he
    obtain ⟨e', he', hcopy, hitem⟩ := h.forth e he
    exact ⟨e', he', hcopy.symm, hitem⟩

theorem Rearranged.symm (h : Rearranged R v v') : Rearranged (fun x y => R y x) v' v := by
  cases h with
  | same => exact .same v
  | atom => exact .atom
  | sequence hitems => exact .sequence hitems.flip
  | mapping hentries => exact .mapping hentries.symm

theorem Alike.refl (v : Value) : Alike v v :=
  .intro (R := fun _ _ => False) nofun (.same v)

/-- Containers with the same parts are alike. -/
theorem Alike.of_same_parts (h : Rearranged Eq v v') : Alike v v' := by
  refine .intro (R := Eq) ?_ h
  rintro x _ rfl
  exact .refl x

theorem Alike.of_perm {m n : Nat} {kind kind' : MappingKind}
    {entries entries' : List (Value × Value)} (h : entries.Perm entries') :
    Alike (mapping m kind entries) (mapping n kind' entries') :=
  .of_same_parts (.mapping (.of_perm Eq.refl h))

theorem Alike.symm (h : Alike v v') : Alike v' v := by
  induction h with
  | @intro R v v' hR h ih => exact .intro (R := fun x y => R y x) (fun x y => ih y x) h.symm

theorem Alike.rearranged (h : Alike v v') : Rearranged Alike v v' := by
  cases h with
  | intro hR h => exact h.mono hR

theorem AlikeSchema.refl (d : Value) : AlikeSchema d d :=
  .intro (R := fun _ _ => False) nofun (.same d)

theorem AlikeSchema.symm {d d' : Value} (h : AlikeSchema d d') : AlikeSchema d' d := by
  induction h with
  | @intro R d d' hR h ih => exact .intro (R := fun x y => R y x) (fun x y => ih y x) h.symm
  | array _ ih => exact .array ih
  | record _ ih => exact .record ih
  | @optional R m n tag own own' others others' hR hown hothers ih =>
      exact .optional (R := fun x y => R y x) (fun x y => ih y x) hown.symm hothers.symm
  | @union R m n tag schemas schemas' hR h ih =>
      exact .union (R := fun x y => R y x) (fun x y => ih y x) h.flip

/-! ## Copies of a key -/

theorem IsCopy.read {α : Type} (f : Value → α) (hf : ∀ m x, f (x.withMark m) = f x)
    (h : IsCopy a b) : f a = f b := by
  rcases h with rfl | ⟨hcontent, -⟩
  · rfl
  · obtain ⟨m, rfl⟩ := eq_withMark_of_content hcontent
    rw [hf]

theorem IsCopy.asText_eq (h : IsCopy a b) : a.asText? = b.asText? :=
  h.read asText? fun _ x => by cases x <;> rfl

theorem IsCopy.position_eq (h : IsCopy a b) : a.position? = b.position? := by
  apply h.read position?
  intro m x
  cases x with
  | atom n c => cases c <;> rfl
  | _ => rfl

theorem IsCopy.isWildcard_eq (h : IsCopy a b) : a.isWildcard = b.isWildcard := by
  apply h.read isWildcard
  intro m x
  cases x with
  | atom n c =>
      cases c with
      | symbol s => cases s <;> rfl
      | _ => rfl
  | _ => rfl

section

variable (hK : Coherent K)

include hK

theorem IsCopy.sameKey_eq (ha : IsKey K a) (h : IsCopy a b) : sameKey a b = true := by
  rcases h with rfl | ⟨-, hidentical⟩
  · exact hK.itself ha.1 ha.2
  · simp [sameKey, hidentical]

/-- Keys may be replaced by ones that are the same. -/
theorem Coherent.sameKey_congr (ha : IsKey K a) (ha' : IsKey K a') (hb : IsKey K b)
    (hb' : IsKey K b') (haa' : sameKey a a' = true) (hbb' : sameKey b b' = true) :
    sameKey a b = sameKey a' b' := by
  rw [Bool.eq_iff_iff]
  constructor
  · intro h
    exact hK.sameKey_trans ha' hb hb' (hK.sameKey_of_left ha' hb ha haa' h) hbb'
  · intro h
    exact hK.sameKey_of_right ha hb hb' (hK.sameKey_trans ha ha' hb' haa' h) hbb'

end

/-! ## What can be asked of a container -/

theorem exists_getElem_of_forall₂ {items items' : List Value} (h : List.Forall₂ R items items')
    {i : Nat} {x : Value} (hx : items[i]? = some x) : ∃ y, items'[i]? = some y ∧ R x y := by
  induction h generalizing i with
  | nil => cases hx
  | @cons head head' _ _ hhead _ ih =>
      cases i with
      | zero =>
          obtain rfl := Option.some.inj hx
          exact ⟨head', rfl, hhead⟩
      | succ i => exact ih hx

/-- An atom has the same attributes wherever it is kept. -/
theorem hasKey_atom (m n : Nat) (a : Atom) : (atom m a).hasKey key = (atom n a).hasKey key := by
  have hattribute (name : String) :
      ((atom m a).attribute? name).map Option.isSome =
        ((atom n a).attribute? name).map Option.isSome := by
    have hinherited : (atom m a).inheritedNames = (atom n a).inheritedNames := rfl
    have htype : (atom m a).typeOf = (atom n a).typeOf := by
      rcases a with _ | _ | _ | _ | n | s
      case number => cases n <;> rfl
      case symbol => cases s <;> rfl
      all_goals rfl
    simp only [attribute?, kindAttribute?, typeAttribute?, hinherited, htype, Option.none_or]
    split_ifs <;> rfl
  rw [HasAttributes.hasKey_eq ⟨rfl, rfl⟩, HasAttributes.hasKey_eq ⟨rfl, rfl⟩]
  simp only [hattribute]

/-- Each member of a rearranged value has a partner. -/
theorem Rearranged.exists_partner (hR : ∀ x, R x x) (h : Rearranged R v v')
    (he' : e' ∈ v'.listing.members) :
    ∃ e ∈ v.listing.members, IsCopy e.1 e'.1 ∧ R e.2 e'.2 := by
  cases h with
  | same => exact ⟨e', he', .inl rfl, hR e'.2⟩
  | atom => cases he'
  | @sequence m n kind kind' items items' hitems =>
      obtain ⟨i, hkey, hitem'⟩ := mem_positions_iff.mp he'
      obtain ⟨x, hitem, hrelated⟩ := exists_getElem_of_forall₂ hitems.flip hitem'
      exact ⟨(e'.1, x), mem_positions_iff.mpr ⟨i, hkey, hitem⟩, .inl rfl, hrelated⟩
  | mapping hentries => exact hentries.back e' he'

section

variable (hK : Coherent K) (hkey : IsKey K key) (hkey' : IsKey K key') (hcopy : IsCopy key key')

include hK hkey hkey' hcopy

section

variable {entries entries' : List (Value × Value)} {m n : Nat} {kind kind' : MappingKind}
  (h : SameEntries R entries entries') (hkeys : (mapping m kind entries).WellKeyed K)
  (hkeys' : (mapping n kind' entries').WellKeyed K)

include h hkeys hkeys'

theorem SameEntries.declares_eq : declares entries key = declares entries' key' := by
  have hsame := hcopy.sameKey_eq hK hkey
  have hcongr {e e' : Value × Value} (he : e ∈ entries) (he' : e' ∈ entries')
      (hpartner : IsCopy e.1 e'.1) : sameKey e.1 key = sameKey e'.1 key' :=
    hK.sameKey_congr (hkeys.1 e he) (hkeys'.1 e' he') hkey hkey'
      (hpartner.sameKey_eq hK (hkeys.1 e he)) hsame
  rw [Bool.eq_iff_iff, declares, declares, List.any_eq_true, List.any_eq_true]
  constructor
  · rintro ⟨e, he, hfound⟩
    obtain ⟨e', he', hpartner, -⟩ := h.forth e he
    exact ⟨e', he', hcongr he he' hpartner ▸ hfound⟩
  · rintro ⟨e', he', hfound⟩
    obtain ⟨e, he, hpartner, -⟩ := h.back e' he'
    exact ⟨e, he, (hcongr he he' hpartner).symm ▸ hfound⟩

theorem SameEntries.hasKey_eq :
    (mapping m kind entries).hasKey key = (mapping n kind' entries').hasKey key' := by
  simp only [hasKey, hkey.2, hkey'.2, h.declares_eq hK hkey hkey' hcopy hkeys hkeys']

theorem SameEntries.exists_holds (hholds : (mapping m kind entries).Holds key held) :
    ∃ held', (mapping n kind' entries').Holds key' held' ∧ R held held' := by
  obtain ⟨e, he, hsame, rfl⟩ := Container.mapping.exists_member hholds
  obtain ⟨e', he', hpartner, hitem⟩ := h.forth e he
  have hekey := hkeys.1 e he
  have hekey' := hkeys'.1 e' he'
  have hsame' : sameKey e'.1 key' = true := by
    rw [← hK.sameKey_congr hekey hekey' hkey hkey' (hpartner.sameKey_eq hK hekey)
      (hcopy.sameKey_eq hK hkey)]
    exact hsame
  exact ⟨e'.2, holds_of_sameKey hK hkeys' he' hkey' hsame', hitem⟩

end

variable (hR : ∀ x, R x x) (h : Rearranged R v v') (hkeys : v.WellKeyed K)
  (hkeys' : v'.WellKeyed K)

include hR h hkeys hkeys'

/-- A rearranged value has the same keys. -/
theorem Rearranged.hasKey_eq : v.hasKey key = v'.hasKey key' := by
  have htext := hcopy.asText_eq
  have hposition := hcopy.position_eq
  cases h with
  | same =>
      by_cases hattributes : v.HasAttributes
      · rw [hattributes.hasKey_eq, hattributes.hasKey_eq, htext]
      · cases v with
        | mapping mark kind entries =>
            exact (SameEntries.refl hR entries).hasKey_eq hK hkey hkey' hcopy hkeys hkeys'
        | sequence => simp only [hasKey, hposition]
        | _ => exact absurd ⟨rfl, rfl⟩ hattributes
  | @atom m n a =>
      rw [hasKey_atom m n, HasAttributes.hasKey_eq ⟨rfl, rfl⟩, HasAttributes.hasKey_eq ⟨rfl, rfl⟩,
        htext]
  | sequence hitems => simp only [hasKey, hposition, hitems.length_eq]
  | mapping hentries => exact hentries.hasKey_eq hK hkey hkey' hcopy hkeys hkeys'

/-- A rearranged container holds a related item under a copy of the key. -/
theorem Rearranged.exists_holds (hprimitive : v.isPrimitive = false) (hholds : v.Holds key held) :
    ∃ held', v'.Holds key' held' ∧ R held held' := by
  have htext := hcopy.asText_eq
  have hposition := hcopy.position_eq
  cases h with
  | same =>
      by_cases hattributes : v.HasAttributes
      · rw [hattributes.holds_iff, htext] at hholds
        exact ⟨held, hattributes.holds_iff.mpr hholds, hR held⟩
      · cases v with
        | mapping mark kind entries =>
            exact (SameEntries.refl hR entries).exists_holds hK hkey hkey' hcopy hkeys hkeys' hholds
        | sequence =>
            rw [holds_sequence_iff, hposition] at hholds
            exact ⟨held, holds_sequence_iff.mpr hholds, hR held⟩
        | _ => exact absurd ⟨rfl, rfl⟩ hattributes
  | atom => cases hprimitive
  | @sequence m n kind kind' items items' hitems =>
      obtain ⟨i, hi, hitem⟩ := holds_sequence_iff.mp hholds
      obtain ⟨y, hitem', hrelated⟩ := exists_getElem_of_forall₂ hitems hitem
      exact ⟨y, holds_sequence_iff.mpr ⟨i, hposition ▸ hi, hitem'⟩, hrelated⟩
  | mapping hentries => exact hentries.exists_holds hK hkey hkey' hcopy hkeys hkeys' hholds

/-- A rearranged shape has a related schema for a copy of the key. -/
theorem Rearranged.exists_assigns (hprimitive : v.isPrimitive = false)
    (hassigns : v.Assigns key held) :
    ∃ held', v'.Assigns key' held' ∧ R held held' := by
  rcases hassigns with hholds | ⟨hnot, hwildcard⟩
  · obtain ⟨held', hholds', hrelated⟩ :=
      h.exists_holds hK hkey hkey' hcopy hR hkeys hkeys' hprimitive hholds
    exact ⟨held', .inl hholds', hrelated⟩
  · have hstar : IsKey K wildcard := ⟨hK.wildcard, rfl⟩
    obtain ⟨held', hholds', hrelated⟩ :=
      h.exists_holds hK hstar hstar (.inl rfl) hR hkeys hkeys' hprimitive hwildcard
    rw [h.hasKey_eq hK hkey hkey' hcopy hR hkeys hkeys'] at hnot
    exact ⟨held', .inr ⟨hnot, hholds'⟩, hrelated⟩

end

/-! ## Tests of rearranged values -/

theorem Rearranged.exists_sequence {m : Nat} {kind : SequenceKind} {items : List Value}
    (hR : ∀ x, R x x) (h : Rearranged R (Value.sequence m kind items) v') :
    ∃ n kind' items', v' = Value.sequence n kind' items' ∧ List.Forall₂ R items items' := by
  cases h with
  | same => exact ⟨m, kind, items, rfl, List.forall₂_same.mpr fun item _ => hR item⟩
  | sequence hitems => exact ⟨_, _, _, rfl, hitems⟩

theorem SameEntries.isEmpty_eq {entries entries' : List (Value × Value)}
    (h : SameEntries R entries entries') : entries.isEmpty = entries'.isEmpty := by
  rw [Bool.eq_iff_iff, List.isEmpty_iff, List.isEmpty_iff]
  constructor
  · rintro rfl
    apply List.eq_nil_iff_forall_not_mem.mpr
    intro e' he'
    obtain ⟨e, he, -⟩ := h.back e' he'
    cases he
  · rintro rfl
    apply List.eq_nil_iff_forall_not_mem.mpr
    intro e he
    obtain ⟨e', he', -⟩ := h.forth e he
    cases he'

section

variable (h : Rearranged R v v')

include h

theorem Rearranged.isPrimitive_eq : v.isPrimitive = v'.isPrimitive := by
  cases h <;> rfl

theorem Rearranged.isObject_eq : v.isObject = v'.isObject := by
  cases h <;> rfl

theorem Rearranged.truth_eq : v.truth = v'.truth := by
  cases h with
  | same | atom => rfl
  | sequence hitems => cases hitems <;> rfl
  | mapping hentries => simp only [truth, hentries.isEmpty_eq]

theorem Rearranged.accepts_eq (f : Family) : f.accepts v = f.accepts v' := by
  cases f <;> cases h <;> rfl

/-- A test of a value does not depend on its arrangement. -/
theorem Rearranged.test_eq {d : Value} {accepts : Value → Bool}
    (hdemand : d.demand = .test accepts) : accepts v = accepts v' := by
  have hnull : v.isNull = v'.isNull := by
    cases h with
    | @atom m n a => cases a <;> rfl
    | _ => rfl
  have hbool : v.isBool = v'.isBool := by cases h <;> rfl
  have hfamily := h.accepts_eq
  cases d with
  | tagged mark tag form =>
      cases form <;> cases tag <;> cases hdemand <;>
        first | exact hnull | exact hbool | exact hfamily _
  | atom => cases hdemand
  | _ =>
      simp only [demand] at hdemand
      split_ifs at hdemand

end

end Value

end ShapeCheck
