import Mathlib.Logic.Relation
import ShapeCheck.Proofs.AtomEquality
import ShapeCheck.Proofs.Unfolding

/-!
# Atoms as literals

Equality links a truth value, an integer and a symbol that is the same integer.  As literals
they are kept apart: the binary value that is not a number matches itself, also where it is a
symbol, and other constants match by being the same one.  What is left is compared by its
face.  So there is one thing about each atom, its mold, that all matching goes by, and
matching is symmetric and transitive.

It is not reflexive.  A number that is undefined in some part has no face, and only the
binary one has a mold of its own: an undefined decimal or complex number rejects itself as a
literal, and a signaling decimal cannot even be compared with itself.
-/

namespace ShapeCheck

namespace Atom

variable {a b l : Atom}

/-- A number that is undefined in some part, and no constant that is also a number. -/
def Undefined (a : Atom) : Prop :=
  ∃ n, a = .number n ∧ (n.parts.1 = .undefined ∨ n.parts.2 = .undefined)

/-- A decimal that refuses to be compared. -/
def isSignaling : Atom → Bool
  | number n => n.isSignaling
  | _ => false

theorem Undefined.isConstant_eq (h : a.Undefined) : a.isConstant = false := by
  obtain ⟨n, rfl, -⟩ := h
  rfl

theorem isNaN_iff : a.isNaN = true ↔ a.asNumber? = some (.binary .nan) := by
  unfold isNaN
  cases a.asNumber? with
  | none => simp
  | some n => cases n <;> simp [Number.isNaN]

/-- What is a number without being a constant is a number of its own. -/
theorem eq_number_of_asNumber {n : Number} (hnumber : a.asNumber? = some n)
    (hconstant : a.isConstant = false) : a = .number n := by
  cases a with
  | number => exact congrArg number (Option.some.inj hnumber)
  | bool | symbol => cases hconstant
  | _ => cases hnumber

theorem face_eq_none_iff :
    a.face? = none ↔
      ∃ n, a.asNumber? = some n ∧ (n.parts.1 = .undefined ∨ n.parts.2 = .undefined) := by
  unfold face?
  split
  next s htext => simp [asNumber_of_asText htext]
  next n htext hnumber => simp [hnumber, or_iff_not_imp_left]
  next htext hnumber => simp [hnumber]

theorem face_of_isNaN (h : a.isNaN = true) : a.face? = none :=
  face_eq_none_iff.mpr ⟨_, isNaN_iff.mp h, .inl rfl⟩

theorem face_eq_none_iff_undefined (hconstant : a.isConstant = false) :
    a.face? = none ↔ a.Undefined := by
  rw [face_eq_none_iff]
  constructor
  · rintro ⟨n, hnumber, hundefined⟩
    exact ⟨n, eq_number_of_asNumber hnumber hconstant, hundefined⟩
  · rintro ⟨n, rfl, hundefined⟩
    exact ⟨n, rfl, hundefined⟩

/-! ## What matching goes by -/

/-- What literals are told apart by: the binary value that is not a number by being that,
any constant by itself, and any other atom by its face. -/
inductive Mold where
  | notNumber
  | constant (a : Atom)
  | face (f : Face)

/-- The mold of an atom.  A number that is undefined in some part has none, unless it is
binary. -/
def mold? (a : Atom) : Option Mold :=
  if a.isNaN then some .notNumber
  else if a.isConstant then some (.constant a)
  else a.face?.map .face

theorem mold_of_isNaN (h : a.isNaN = true) : a.mold? = some .notNumber := by
  rw [mold?, if_pos h]

theorem mold_of_isConstant (hnan : a.isNaN = false) (h : a.isConstant = true) :
    a.mold? = some (.constant a) := by
  rw [mold?, if_neg (by simp [hnan]), if_pos h]

theorem mold_of_face (hnan : a.isNaN = false) (hconstant : a.isConstant = false) :
    a.mold? = a.face?.map .face := by
  rw [mold?, if_neg (by simp [hnan]), if_neg (by simp [hconstant])]

theorem constant_of_mold {c : Atom} (h : a.mold? = some (.constant c)) : c = a := by
  unfold mold? at h
  split_ifs at h
  next => cases h
  next =>
    cases h
    rfl
  next => simp at h

theorem isNaN_of_mold (h : a.mold? = some .notNumber) : a.isNaN = true := by
  unfold mold? at h
  split_ifs at h with hnan
  next => exact hnan
  next => cases h
  next => simp at h

theorem isShared_of_isConstant (h : a.isConstant = true) : a.isShared = true := by
  cases a <;> first | rfl | cases h

theorem mold_eq_none_iff : a.mold? = none ↔ a.Undefined ∧ a.isNaN = false := by
  cases hnan : a.isNaN with
  | true => simp [mold_of_isNaN hnan]
  | false =>
      cases hconstant : a.isConstant with
      | false => simp [mold_of_face hnan hconstant, face_eq_none_iff_undefined hconstant]
      | true =>
          rw [mold_of_isConstant hnan hconstant]
          refine iff_of_false nofun fun h => ?_
          exact Bool.true_eq_false.mp (hconstant.symm.trans h.1.isConstant_eq)

/-- Of two atoms that match, both or neither are the binary value that is not a number. -/
theorem isNaN_eq_of_matchesLiteral (h : a.matchesLiteral l = .ok true) : a.isNaN = l.isNaN := by
  unfold matchesLiteral at h
  split_ifs at h with hnan hconstant
  · obtain ⟨ha, hl⟩ := Bool.and_eq_true_iff.mp hnan
    rw [ha, hl]
  · have hsame : a = l := by simpa using h
    rw [hsame]
  · obtain ⟨face, hface, hface'⟩ := equal_eq_true_iff.mp h
    have hdefined {b : Atom} (hb : b.face? = some face) : b.isNaN = false := by
      by_contra hnan
      rw [face_of_isNaN (Bool.not_eq_false _ ▸ hnan)] at hb
      cases hb
    rw [hdefined hface, hdefined hface']

theorem isNaN_eq_of_mold {mold : Mold} (ha : a.mold? = some mold) (hl : l.mold? = some mold) :
    a.isNaN = l.isNaN := by
  rw [Bool.eq_iff_iff]
  constructor
  · intro hnan
    rw [mold_of_isNaN hnan] at ha
    exact isNaN_of_mold (ha ▸ hl)
  · intro hnan
    rw [mold_of_isNaN hnan] at hl
    exact isNaN_of_mold (hl ▸ ha)

theorem matchesLiteral_of_isNaN (ha : a.isNaN = true) (hl : l.isNaN = true) :
    a.matchesLiteral l = .ok true := by
  simp [matchesLiteral, ha, hl]

theorem matchesLiteral_of_isConstant (hnan : a.isNaN = false)
    (h : a.isConstant = true ∨ l.isConstant = true) : a.matchesLiteral l = .ok (a = l) := by
  rw [matchesLiteral, if_neg (by simp [hnan]), if_pos (by simpa using h)]

theorem matchesLiteral_of_equal (hnan : a.isNaN = false) (ha : a.isConstant = false)
    (hl : l.isConstant = false) : a.matchesLiteral l = a.equal l := by
  simp [matchesLiteral, hnan, ha, hl]

theorem exists_mold_iff_of_isConstant (hnan : a.isNaN = false) (h : a.isConstant = true) :
    (∃ mold, a.mold? = some mold ∧ l.mold? = some mold) ↔ a = l := by
  constructor
  · rintro ⟨mold, ha, hl⟩
    rw [mold_of_isConstant hnan h] at ha
    obtain rfl := Option.some.inj ha
    exact constant_of_mold hl
  · rintro rfl
    exact ⟨_, mold_of_isConstant hnan h, mold_of_isConstant hnan h⟩

/-- Among atoms other than the binary value that is not a number, matching is having the
same mold. -/
theorem matchesLiteral_iff_of_ne_nan (hna : a.isNaN = false) (hnl : l.isNaN = false) :
    a.matchesLiteral l = .ok true ↔ ∃ mold, a.mold? = some mold ∧ l.mold? = some mold := by
  cases ha : a.isConstant with
  | true =>
      rw [matchesLiteral_of_isConstant hna (.inl ha), exists_mold_iff_of_isConstant hna ha]
      simp
  | false =>
      cases hl : l.isConstant with
      | true =>
          rw [matchesLiteral_of_isConstant hna (.inr hl)]
          simp only [and_comm (a := a.mold? = _), exists_mold_iff_of_isConstant hnl hl]
          simp [eq_comm]
      | false =>
          rw [matchesLiteral_of_equal hna ha hl, equal_eq_true_iff, mold_of_face hna ha,
            mold_of_face hnl hl]
          simp only [Option.map_eq_some_iff]
          constructor
          · rintro ⟨face, hface, hface'⟩
            exact ⟨.face face, ⟨face, hface, rfl⟩, face, hface', rfl⟩
          · rintro ⟨_, ⟨face, hface, rfl⟩, face', hface', hsame⟩
            obtain rfl := Mold.face.inj hsame
            exact ⟨face', hface, hface'⟩

/-- An atom matches a literal exactly if both have the same mold. -/
theorem matchesLiteral_eq_true_iff :
    a.matchesLiteral l = .ok true ↔ ∃ mold, a.mold? = some mold ∧ l.mold? = some mold := by
  by_cases hnan : a.isNaN = l.isNaN
  · cases hna : a.isNaN with
    | true =>
        have hnl := hnan.symm.trans hna
        simp [matchesLiteral_of_isNaN hna hnl, mold_of_isNaN hna, mold_of_isNaN hnl]
    | false => exact matchesLiteral_iff_of_ne_nan hna (hnan.symm.trans hna)
  · refine iff_of_false (fun h => hnan (isNaN_eq_of_matchesLiteral h)) ?_
    rintro ⟨mold, ha, hl⟩
    exact hnan (isNaN_eq_of_mold ha hl)

/-! ## Undefined numbers -/

/-- Two undefined numbers of one type match if they are binary; otherwise a signaling one
refuses to be compared, and a quiet one differs. -/
theorem matchesLiteral_of_undefined (ha : a.Undefined) (hl : l.Undefined)
    (htype : a.typeName = l.typeName) :
    a.matchesLiteral l =
      if a.isNaN then .ok true
      else if a.isSignaling || l.isSignaling then .error .invalidDecimal
      else .ok false := by
  obtain ⟨m, rfl, hm⟩ := ha
  obtain ⟨n, rfl, hn⟩ := hl
  cases m with
  | int i derived => simp [Number.parts] at hm
  | fraction q => simp [Number.parts] at hm
  | binary x =>
      cases n with
      | binary y =>
          have hx : x = .nan := by
            cases x <;> simp_all [Number.parts, Binary64.extent, Binary64.toRat?]
          have hy : y = .nan := by
            cases y <;> simp_all [Number.parts, Binary64.extent, Binary64.toRat?]
          subst hx hy
          rfl
      | int i derived => cases derived <;> simp [typeName] at htype
      | _ => simp [typeName] at htype
  | decimal d =>
      cases n with
      | decimal e =>
          have hd : d.extent = .undefined := by simpa [Number.parts] using hm
          simp [matchesLiteral, isNaN, Number.isNaN, isConstant, isBool, isSymbol, equal, asText?,
            asNumber?, Number.equal, Number.extent?, isSignaling, Number.isSignaling, hd]
      | int i derived => cases derived <;> simp [typeName] at htype
      | _ => simp [typeName] at htype
  | complex re im =>
      cases n with
      | complex re' im' =>
          have hparts : re.extent = .undefined ∨ im.extent = .undefined := hm
          have hdiffer : (re.equal re' && im.equal im') = false := by
            rcases hparts with h | h <;> simp [Binary64.equal, h]
          simp [matchesLiteral, isNaN, Number.isNaN, isConstant, isBool, isSymbol, equal, asText?,
            asNumber?, Number.equal, isSignaling, Number.isSignaling, hdiffer]
      | int i derived => cases derived <;> simp [typeName] at htype
      | _ => simp [typeName] at htype

end Atom

namespace Check

open Run

variable {σ : Type} {host : Host σ} {d v : Value} {m n : Nat} {a b l : Atom} {w : World σ}

/-- The check of an atom against a literal is their comparison. -/
theorem check_literal_startedIn (host : Host σ) (m n : Nat) (l a : Atom) (w : World σ) :
    (check host (.atom m l) (.atom n a)).startedIn w =
      ((a.matchesLiteral l).map (.ofBool · (.incorrectValue (.atom m l) (.atom n a))), w) := by
  rw [check_of_literal (d := .atom m l) rfl]
  cases a.matchesLiteral l <;> rfl

theorem literal_accepts_iff :
    ((check host (.atom m l) (.atom n a)).startedIn w).1 = .ok none ↔
      ∃ mold, l.mold? = some mold ∧ a.mold? = some mold := by
  simp only [and_comm (a := l.mold? = _)]
  rw [check_literal_startedIn, ← Atom.matchesLiteral_eq_true_iff]
  rcases a.matchesLiteral l with fault | _ | _ <;> simp [Except.map, Outcome.ofBool]

/-! ## Matching is symmetric and transitive -/

/-- One primitive value, taken as a literal, accepts another. -/
def MatchesLiteral (host : Host σ) (w : World σ) (d v : Value) : Prop :=
  d.isPrimitive = true ∧ v.isPrimitive = true ∧ ((check host d v).startedIn w).1 = .ok none

theorem matches_iff {x y : Value} :
    MatchesLiteral host w x y ↔
      ∃ m a n b mold, x = .atom m a ∧ y = .atom n b ∧ a.mold? = some mold ∧
        b.mold? = some mold := by
  constructor
  · rintro ⟨hx, hy, haccepts⟩
    cases x with
    | atom m a =>
        cases y with
        | atom n b =>
            obtain ⟨mold, ha, hb⟩ := literal_accepts_iff.mp haccepts
            exact ⟨m, a, n, b, mold, rfl, rfl, ha, hb⟩
        | _ => cases hy
    | _ => cases hx
  · rintro ⟨m, a, n, b, mold, rfl, rfl, ha, hb⟩
    exact ⟨rfl, rfl, literal_accepts_iff.mpr ⟨mold, ha, hb⟩⟩

theorem MatchesLiteral.symm {w' : World σ} {x y : Value} (h : MatchesLiteral host w x y) :
    MatchesLiteral host w' y x := by
  obtain ⟨m, a, n, b, mold, hx, hy, ha, hb⟩ := matches_iff.mp h
  exact matches_iff.mpr ⟨n, b, m, a, mold, hy, hx, hb, ha⟩

theorem MatchesLiteral.trans {w' w'' : World σ} {x y z : Value} (h : MatchesLiteral host w x y)
    (h' : MatchesLiteral host w' y z) : MatchesLiteral host w'' x z := by
  obtain ⟨m, a, n, b, mold, rfl, rfl, ha, hb⟩ := matches_iff.mp h
  obtain ⟨n', b', k, c, mold', hy, rfl, hb', hc⟩ := matches_iff.mp h'
  cases hy
  obtain rfl := Option.some.inj (hb.symm.trans hb')
  exact matches_iff.mpr ⟨m, a, k, c, mold, rfl, rfl, ha, hc⟩

/-- A value that is the binary value which is not a number. -/
def IsNaN (v : Value) : Prop := ∃ m a, v = .atom m a ∧ a.isNaN = true

/-- What matches a constant is the very same value, unless neither is a number. -/
theorem MatchesLiteral.identical {y : Value} (ha : a.isConstant = true)
    (h : MatchesLiteral host w (.atom m a) y) :
    (Value.atom m a).identical y = true ∨ IsNaN (.atom m a) ∧ IsNaN y := by
  obtain ⟨m', a', n, b, mold, hx, rfl, ha', hb⟩ := matches_iff.mp h
  cases hx
  cases hnan : a.isNaN with
  | true =>
      have hnan' := Atom.isNaN_eq_of_mold ha' hb
      exact .inr ⟨⟨m, a, rfl, hnan⟩, n, b, rfl, hnan'.symm.trans hnan⟩
  | false =>
      rw [Atom.mold_of_isConstant hnan ha] at ha'
      obtain rfl := Option.some.inj ha'
      obtain rfl := Atom.constant_of_mold hb
      exact .inl (by simp [Value.identical, Atom.isShared_of_isConstant ha])

/-- A chain of matches is a match. -/
theorem MatchesLiteral.of_chain {x y : Value}
    (h : Relation.TransGen (fun x y => ∃ w, MatchesLiteral host w x y) x y) :
    ∃ w, MatchesLiteral host w x y := by
  induction h with
  | single h => exact h
  | tail _ hlast ih =>
      obtain ⟨w, hfirst⟩ := ih
      obtain ⟨w', hlast⟩ := hlast
      exact ⟨w', hfirst.trans hlast⟩

/-- The binary value that is not a number equals no primitive value. -/
theorem IsNaN.not_equal {x y : Value} (hx : IsNaN x) (hy : y.isPrimitive = true) :
    x.equal y ≠ .ok true := by
  obtain ⟨m, a, rfl, hnan⟩ := hx
  cases y with
  | atom n b =>
      intro hequal
      obtain ⟨face, hface, -⟩ := Atom.equal_eq_true_iff.mp hequal
      rw [Atom.face_of_isNaN hnan] at hface
      cases hface
  | _ => cases hy

/-- A symbol that is not a number leads to the value that it is. -/
example :
    MatchesLiteral agreeable calm (.atom 0 (.symbol (.quantity "Limit" "none" (.binary .nan))))
      (.atom 0 (.number (.binary .nan))) :=
  ⟨rfl, rfl, rfl⟩

/-- Every primitive value accepts its copies, unless it is an undefined number.  Two such
numbers of one type accept each other if they are binary; if either of them is signaling,
the comparison fails, and otherwise they reject each other. -/
theorem literal_verdicts (host : Host σ) (w : World σ) :
    (∀ m n a, ¬ a.Undefined →
      (check host (.atom m a) (.atom n a)).startedIn w = (.ok none, w)) ∧
      ∀ m n l a, l.Undefined → a.Undefined → a.typeName = l.typeName →
        (check host (.atom m l) (.atom n a)).startedIn w =
          (if a.isNaN then .ok none
            else if a.isSignaling || l.isSignaling then .error .invalidDecimal
            else .ok (some (.incorrectValue (.atom m l) (.atom n a))), w) := by
  constructor
  · intro m n a hdefined
    obtain ⟨mold, hmold⟩ : ∃ mold, a.mold? = some mold := by
      rw [← Option.ne_none_iff_exists']
      exact fun hnone => hdefined (Atom.mold_eq_none_iff.mp hnone).1
    rw [check_literal_startedIn, Atom.matchesLiteral_eq_true_iff.mpr ⟨mold, hmold, hmold⟩]
    rfl
  · intro m n l a hl ha htype
    rw [check_literal_startedIn, Atom.matchesLiteral_of_undefined ha hl htype]
    split
    next => rfl
    next =>
      split
      next => rfl
      next => rfl

/-- A text accepts its copy, and a signaling decimal cannot be compared with itself. -/
theorem literal_verdicts_text :
    let name : Atom := .text "a" false
    let signaling : Atom := .number (.decimal (.nan false true 0))
    (check agreeable (.atom 1 name) (.atom 2 name)).startedIn calm = (.ok none, calm) ∧
      (check agreeable (.atom 1 signaling) (.atom 1 signaling)).startedIn calm =
        (.error .invalidDecimal, calm) := by
  intro name signaling
  obtain ⟨hdefined, hundefined⟩ := literal_verdicts agreeable calm
  have hname : ¬ name.Undefined := by
    rintro ⟨n, hnumber, -⟩
    exact Atom.noConfusion hnumber
  have hsignaling : signaling.Undefined := ⟨_, rfl, .inl rfl⟩
  exact ⟨hdefined 1 2 name hname, hundefined 1 1 _ _ hsignaling hsignaling rfl⟩

/-- A decimal that is not a number rejects itself as a literal. -/
theorem undefined_decimal_rejects_itself :
    let d : Value := .atom 0 (.number (.decimal (.nan false false 0)))
    (check agreeable d d).startedIn calm = (.ok (some (.incorrectValue d d)), calm) :=
  rfl

end Check

end ShapeCheck
