import ShapeCheck.Proofs.KeyEquality

/-!
# Being the same key is an equivalence

Among keys, being the same is symmetric and transitive.  Both are proved together by
induction on the parts of a key: for frozen sets symmetry needs transitivity, since it
counts elements, and no element of one set may be the same as two of the other.
-/

namespace ShapeCheck

namespace Value

variable {K : Value → Prop} {a b c : Value}

section

variable {α β : Type} {R : α → β → Prop} {as : List α} {bs : List β}

theorem mem_of_mem_rest {b b₀ : β} {before after : List β} (h : b ∈ before ++ after) :
    b ∈ before ++ b₀ :: after :=
  List.mem_append.mpr ((List.mem_append.mp h).imp_right (List.mem_cons_of_mem _))

/-- A list whose items have partners in a second one, no two of them the same, is not
longer than that. -/
theorem length_le_of_partners (hpartner : ∀ a ∈ as, ∃ b ∈ bs, R a b)
    (hapart : as.Pairwise fun a a' => ∀ b ∈ bs, R a b → ¬ R a' b) :
    as.length ≤ bs.length := by
  induction as generalizing bs with
  | nil => exact Nat.zero_le _
  | cons head tail ih =>
      obtain ⟨b₀, hb₀, hhead⟩ := hpartner head List.mem_cons_self
      obtain ⟨before, after, rfl⟩ := List.append_of_mem hb₀
      rw [List.pairwise_cons] at hapart
      have htail : tail.length ≤ (before ++ after).length := by
        apply ih
        · intro a ha
          obtain ⟨b, hb, hab⟩ := hpartner a (List.mem_cons_of_mem _ ha)
          have hne : b ≠ b₀ := by
            rintro rfl
            exact hapart.1 a ha b hb₀ hhead hab
          exact ⟨b, by simpa [hne] using hb, hab⟩
        · exact hapart.2.imp fun h b hb => h b (mem_of_mem_rest hb)
      simp only [List.length_cons, List.length_append] at htail ⊢
      omega

/-- If the lists are of the same length, each item of the second one is a partner. -/
theorem exists_partner (hlength : as.length = bs.length) (hpartner : ∀ a ∈ as, ∃ b ∈ bs, R a b)
    (hapart : as.Pairwise fun a a' => ∀ b ∈ bs, R a b → ¬ R a' b) :
    ∀ b ∈ bs, ∃ a ∈ as, R a b := by
  intro b hb
  by_contra hnone
  push Not at hnone
  obtain ⟨before, after, rfl⟩ := List.append_of_mem hb
  have hle : as.length ≤ (before ++ after).length := by
    apply length_le_of_partners
    · intro a ha
      obtain ⟨b', hb', hab'⟩ := hpartner a ha
      have hne : b' ≠ b := by
        rintro rfl
        exact hnone a ha hab'
      exact ⟨b', by simpa [hne] using hb', hab'⟩
    · exact hapart.imp fun h b' hb' => h b' (mem_of_mem_rest hb')
  simp only [List.length_append, List.length_cons] at hlength hle
  omega

end

theorem trunk_withMark (m : Nat) (v : Value) : (v.withMark m).trunk? = v.trunk? := by
  cases v with
  | sequence _ kind => cases kind <;> rfl
  | _ => rfl

theorem branches_withMark (m : Nat) (v : Value) : (v.withMark m).branches = v.branches := by
  cases v <;> rfl

/-- Matching goes by content, so a copy matches what the value itself does. -/
theorem Matches.of_content_left (hcontent : a.withMark 0 = b.withMark 0) (h : Matches b c) :
    Matches a c := by
  obtain ⟨m, rfl⟩ := eq_withMark_of_content hcontent.symm
  cases h with
  | atom hx hy => exact .atom hx hy
  | compound htrunk htrunk' hparts =>
      exact .compound (trunk_withMark m b ▸ htrunk) htrunk' (branches_withMark m b ▸ hparts)
  | frozenset hlength hfound => exact .frozenset hlength hfound
  | range h => exact .range h
  | method h => exact .method h

theorem Matches.of_content_right (hcontent : b.withMark 0 = c.withMark 0) (h : Matches a b) :
    Matches a c := by
  obtain ⟨m, rfl⟩ := eq_withMark_of_content hcontent
  cases h with
  | atom hx hy => exact .atom hx hy
  | compound htrunk htrunk' hparts =>
      exact .compound htrunk (trunk_withMark m b ▸ htrunk') (branches_withMark m b ▸ hparts)
  | frozenset hlength hfound => exact .frozenset hlength hfound
  | range h => exact .range h
  | method h => exact .method h

theorem equalRanges_symm {start stop step start' stop' step' : Int}
    (h : equalRanges start stop step start' stop' step' = true) :
    equalRanges start' stop' step' start stop step = true := by
  simp only [equalRanges] at h ⊢
  grind

theorem equalRanges_trans {start stop step start' stop' step' start'' stop'' step'' : Int}
    (h : equalRanges start stop step start' stop' step' = true)
    (h' : equalRanges start' stop' step' start'' stop'' step'' = true) :
    equalRanges start stop step start'' stop'' step'' = true := by
  simp only [equalRanges] at h h' ⊢
  grind

theorem forall₂_flip_of_mem {α β : Type} {R : α → β → Prop} {S : β → α → Prop} {as : List α}
    {bs : List β} (h : List.Forall₂ R as bs) (hRS : ∀ a ∈ as, ∀ b ∈ bs, R a b → S b a) :
    List.Forall₂ S bs as := by
  induction h with
  | nil => exact .nil
  | cons hhead _ ih =>
      simp only [List.forall_mem_cons] at hRS
      exact .cons (hRS.1.1 hhead) (ih fun a ha => (hRS.2 a ha).2)

theorem forall₂_comp_of_mem {α β γ : Type} {R : α → β → Prop} {S : β → γ → Prop}
    {T : α → γ → Prop} {as : List α} {bs : List β} {cs : List γ} (h : List.Forall₂ R as bs)
    (h' : List.Forall₂ S bs cs)
    (hRST : ∀ a ∈ as, ∀ b ∈ bs, ∀ c ∈ cs, R a b → S b c → T a c) : List.Forall₂ T as cs := by
  induction h generalizing cs with
  | nil => cases h'; exact .nil
  | cons hhead _ ih =>
      cases h' with
      | cons hhead' htail' =>
          simp only [List.forall_mem_cons] at hRST
          exact .cons (hRST.1.1.1 hhead hhead')
            (ih htail' fun a ha b hb => ((hRST.2 a ha).2 b hb).2)

/-- What holds of all parts of a key whenever it holds of their parts holds of the key. -/
theorem Coherent.induction (hK : Coherent K) {P : Value → Prop}
    (step : ∀ v, IsKey K v → (∀ part ∈ v.branches, P part) → P v) (ha : IsKey K a) : P a := by
  induction hsize : sizeOf a using Nat.strongRecOn generalizing a with
  | _ n ih =>
      apply step a ha
      intro part hpart
      exact ih (sizeOf part) (hsize ▸ sizeOf_lt_of_mem_branches hpart)
        (hK.isKey_of_mem_branches ha hpart) rfl

/-- What being the same is like, seen from one key. -/
structure Equivalent (K : Value → Prop) (a : Value) : Prop where
  symm {b : Value} : IsKey K b → Same a b → Same b a
  trans {b c : Value} : IsKey K b → IsKey K c → Same a b → Same b c → Same a c

section

variable (hK : Coherent K) (ha : IsKey K a) (hb : IsKey K b)
  (hparts : ∀ part ∈ a.branches, Equivalent K part)

include hK ha hb hparts

theorem Matches.symm (h : Matches a b) : Matches b a := by
  have hkey (x : Value) (hx : x ∈ a.branches) : IsKey K x := hK.isKey_of_mem_branches ha hx
  have hkey' (y : Value) (hy : y ∈ b.branches) : IsKey K y := hK.isKey_of_mem_branches hb hy
  cases h with
  | atom hx hy => exact .atom hy hx
  | compound htrunk htrunk' hsame =>
      refine .compound htrunk' htrunk (forall₂_flip_of_mem hsame ?_)
      intro x hx y hy hxy
      exact (hparts x hx).symm (hkey' y hy) hxy
  | @frozenset m n items items' hlength hfound =>
      -- No element of the second set is the same as two elements of the first.
      have hpartner : ∀ y ∈ items', ∃ x ∈ items, Same x y := by
        apply exists_partner hlength hfound
        refine (hK.elements ha.1).2.imp_of_mem ?_
        intro x x' hx hx' hdistinct y hy hxy hx'y
        have hyx' := (hparts x' hx').symm (hkey' y hy) hx'y
        have hxx' := (hparts x hx).trans (hkey' y hy) (hkey x' hx') hxy hyx'
        exact absurd (sameKey_iff_same.mpr hxx') (by simp [hdistinct])
      refine .frozenset hlength.symm ?_
      intro y hy
      obtain ⟨x, hx, hxy⟩ := hpartner y hy
      exact ⟨x, hx, (hparts x hx).symm (hkey' y hy) hxy⟩
  | range h => exact .range (equalRanges_symm h)
  | method h => exact .method (identical_symm (hK.content (hK.owner ha.1) (hK.owner hb.1) h) h)

theorem Matches.trans (hc : IsKey K c) (h : Matches a b) (h' : Matches b c) : Matches a c := by
  have hkey (y : Value) (hy : y ∈ b.branches) : IsKey K y := hK.isKey_of_mem_branches hb hy
  have hkey' (z : Value) (hz : z ∈ c.branches) : IsKey K z := hK.isKey_of_mem_branches hc hz
  cases h with
  | atom hx hy =>
      cases h' with
      | atom hy' hz =>
          obtain rfl := Option.some.inj (hy.symm.trans hy')
          exact .atom hx hz
      | compound htrunk => cases htrunk
  | compound htrunk₁ htrunk₂ hsame =>
      cases h' with
      | compound htrunk₃ htrunk₄ hsame' =>
          obtain rfl := Option.some.inj (htrunk₂.symm.trans htrunk₃)
          refine .compound htrunk₁ htrunk₄ (forall₂_comp_of_mem hsame hsame' ?_)
          intro x hx y hy z hz hxy hyz
          exact (hparts x hx).trans (hkey y hy) (hkey' z hz) hxy hyz
      | atom | frozenset | range | method => cases htrunk₂
  | frozenset hlength hfound =>
      cases h' with
      | frozenset hlength' hfound' =>
          refine .frozenset (hlength.trans hlength') ?_
          intro x hx
          obtain ⟨y, hy, hxy⟩ := hfound x hx
          obtain ⟨z, hz, hyz⟩ := hfound' y hy
          exact ⟨z, hz, (hparts x hx).trans (hkey y hy) (hkey' z hz) hxy hyz⟩
      | compound htrunk => cases htrunk
  | range h =>
      cases h' with
      | range h' => exact .range (equalRanges_trans h h')
      | compound htrunk => cases htrunk
  | method h =>
      cases h' with
      | method h' =>
          have hcontent := hK.content (hK.owner ha.1) (hK.owner hb.1) h
          have hcontent' := hK.content (hK.owner hb.1) (hK.owner hc.1) h'
          exact .method (identical_trans hcontent hcontent' h h')
      | compound htrunk => cases htrunk

end

/-- Being the same is symmetric and transitive among keys. -/
theorem Coherent.equivalent (hK : Coherent K) (ha : IsKey K a) : Equivalent K a := by
  apply hK.induction _ ha
  intro a ha hparts
  constructor
  · intro b hb h
    rw [hK.same_iff ha hb] at h
    rw [hK.same_iff hb ha]
    exact h.imp (fun h => identical_symm (hK.content ha.1 hb.1 h) h) (.symm hK ha hb hparts)
  · intro b c hb hc h h'
    rw [hK.same_iff ha hb] at h
    rw [hK.same_iff hb hc] at h'
    rw [hK.same_iff ha hc]
    rcases h with h | h
    · have hcontent := hK.content ha.1 hb.1 h
      exact h'.imp (fun h' => identical_trans hcontent (hK.content hb.1 hc.1 h') h h')
        (.of_content_left hcontent)
    · rcases h' with h' | h'
      · exact .inr (h.of_content_right (hK.content hb.1 hc.1 h'))
      · exact .inr (h.trans hK ha hb hparts hc h')

theorem Coherent.sameKey_symm (hK : Coherent K) (ha : IsKey K a) (hb : IsKey K b)
    (h : sameKey a b = true) : sameKey b a = true :=
  sameKey_iff_same.mpr ((hK.equivalent ha).symm hb (sameKey_iff_same.mp h))

theorem Coherent.sameKey_trans (hK : Coherent K) (ha : IsKey K a) (hb : IsKey K b)
    (hc : IsKey K c) (h : sameKey a b = true) (h' : sameKey b c = true) : sameKey a c = true :=
  sameKey_iff_same.mpr ((hK.equivalent ha).trans hb hc (sameKey_iff_same.mp h)
    (sameKey_iff_same.mp h'))

/-- Two keys that are the same as a third one are the same. -/
theorem Coherent.sameKey_of_right (hK : Coherent K) (ha : IsKey K a) (hb : IsKey K b)
    (hc : IsKey K c) (h : sameKey a c = true) (h' : sameKey b c = true) : sameKey a b = true :=
  hK.sameKey_trans ha hc hb h (hK.sameKey_symm hb hc h')

/-- Two keys that a third one is the same as are the same. -/
theorem Coherent.sameKey_of_left (hK : Coherent K) (ha : IsKey K a) (hb : IsKey K b)
    (hc : IsKey K c) (h : sameKey c a = true) (h' : sameKey c b = true) : sameKey a b = true :=
  hK.sameKey_trans ha hc hb (hK.sameKey_symm hc ha h) h'

end Value

end ShapeCheck
