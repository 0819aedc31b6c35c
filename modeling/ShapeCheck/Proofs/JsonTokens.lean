import Mathlib.Algebra.Group.Nat.Defs
import Mathlib.Tactic.SplitIfs
import ShapeCheck.Json.Reader
import ShapeCheck.Json.Spelling

/-!
# Texts and integers in JSON text

The reader gets a text back from its spelling between quote marks, and an integer from its
digits, whatever follows them.  A text is read character by character: one that is not
spelled as itself is spelled by an escape of its own, or by one or two UTF-16 units.
-/

namespace ShapeCheck.Json

open Reader

variable {ascii : Bool} {rest : List Char}

/-! ## Characters -/

theorem hexValue_hexDigit : ∀ d < 16, hexValue? (Text.hexDigit d) = some d := by
  decide

/-- Four digits are enough for a UTF-16 unit. -/
theorem unit_hexPadded {n : Nat} (hn : n < 65536) (rest : List Char) :
    unit? ((Text.hexPadded 4 n).toList ++ rest) = some (n, rest) := by
  have hdigits : (Text.hexPadded 4 n).toList =
      [Text.hexDigit (n / 4096 % 16), Text.hexDigit (n / 256 % 16), Text.hexDigit (n / 16 % 16),
        Text.hexDigit (n % 16)] := by
    simp [Text.hexPadded, List.range, List.range.loop]
  have hdigit (k : Nat) : hexValue? (Text.hexDigit (k % 16)) = some (k % 16) :=
    hexValue_hexDigit _ (Nat.mod_lt _ (by decide))
  rw [hdigits]
  simp only [List.cons_append, List.nil_append, unit?, hdigit, Option.bind_eq_bind,
    Option.bind_some, Option.pure_def, Option.some.injEq, Prod.mk.injEq, and_true]
  omega

theorem escapeUnit_toList (n : Nat) :
    (escapeUnit n).toList = '\\' :: 'u' :: (Text.hexPadded 4 n).toList := by
  rw [escapeUnit, String.toList_append]
  rfl

theorem character_of_unit {n : Nat} (hn : n < 65536) (hhigh : isHighHalf n = false)
    (hlow : isLowHalf n = false) (rest : List Char) :
    character? ((escapeUnit n).toList ++ rest) = some (Char.ofNat n, rest) := by
  rw [escapeUnit_toList]
  simp [character?, escapedUnits?, unit_hexPadded hn, hhigh, hlow]

/-- A high and a low half stand for one character together. -/
theorem character_of_halves {high low : Nat} (hhigh : isHighHalf high = true)
    (hlow : isLowHalf low = true) (rest : List Char) :
    character? ((escapeUnit high).toList ++ ((escapeUnit low).toList ++ rest)) =
      some (Char.ofNat (65536 + 1024 * (high - 55296) + (low - 56320)), rest) := by
  have hunit : high < 65536 ∧ low < 65536 := by
    simp only [isHighHalf, isLowHalf, Bool.and_eq_true, decide_eq_true_eq] at hhigh hlow
    omega
  simp [escapeUnit_toList, character?, escapedUnits?, unit_hexPadded hunit.1,
    unit_hexPadded hunit.2, hhigh, hlow]

theorem character_of_itself {c : Char} (hquote : c ≠ '"') (hbackslash : c ≠ '\\')
    (hcontrol : ¬ c.toNat < 32) (rest : List Char) :
    character? (c :: rest) = some (c, rest) := by
  rw [character?]
  · simp [hquote, hbackslash, hcontrol]
  · intro _ hc
    exact absurd hc hbackslash
  · intro _ _ hc
    exact absurd hc hbackslash

/-- No character is one half of a pair of units. -/
theorem no_half (c : Char) : isHighHalf c.toNat = false ∧ isLowHalf c.toNat = false := by
  have hvalid : c.toNat < 0xd800 ∨ 0xdfff < c.toNat ∧ c.toNat < 0x110000 := c.valid
  simp only [isHighHalf, isLowHalf, Bool.and_eq_false_iff, decide_eq_false_iff_not]
  omega

/-- Spellings that are read as a character, whatever follows. -/
def Spells (s : String) (c : Char) : Prop :=
  ∀ rest, character? (s.toList ++ rest) = some (c, rest)

theorem Spells.choice {p : Prop} [Decidable p] {s t : String} {c : Char} (h : p → Spells s c)
    (h' : ¬ p → Spells t c) : Spells (if p then s else t) c := by
  by_cases hp : p
  · rw [if_pos hp]
    exact h hp
  · rw [if_neg hp]
    exact h' hp

/-- A character is read back from its unit, if it has one of its own. -/
theorem spells_escapeUnit {c : Char} (hn : c.toNat < 65536) : Spells (escapeUnit c.toNat) c := by
  intro rest
  rw [character_of_unit hn (no_half c).1 (no_half c).2, Char.ofNat_toNat]

/-- Any other character is read back from two halves. -/
theorem spells_escapeHalves {c : Char} (hn : ¬ c.toNat < 65536) :
    Spells (escapeUnit (55296 + (c.toNat - 65536) / 1024) ++
      escapeUnit (56320 + (c.toNat - 65536) % 1024)) c := by
  have hvalid : c.toNat < 0xd800 ∨ 0xdfff < c.toNat ∧ c.toNat < 0x110000 := c.valid
  have hhigh : isHighHalf (55296 + (c.toNat - 65536) / 1024) = true := by
    simp only [isHighHalf, Bool.and_eq_true, decide_eq_true_eq]
    omega
  have hlow : isLowHalf (56320 + (c.toNat - 65536) % 1024) = true := by
    simp only [isLowHalf, Bool.and_eq_true, decide_eq_true_eq]
    omega
  have hjoined : 65536 + 1024 * (55296 + (c.toNat - 65536) / 1024 - 55296) +
      (56320 + (c.toNat - 65536) % 1024 - 56320) = c.toNat := by
    omega
  intro rest
  rw [String.toList_append, List.append_assoc, character_of_halves hhigh hlow, hjoined,
    Char.ofNat_toNat]

/-- A spelled character is read back. -/
theorem spells_escapeChar (ascii : Bool) (c : Char) : Spells (escapeChar ascii c) c := by
  have hofNat {n : Nat} (hn : c.toNat = n) : Char.ofNat n = c := hn ▸ Char.ofNat_toNat c
  unfold escapeChar
  refine .choice (fun hquote => ?_) fun hquote => ?_
  · rw [hquote]
    exact fun _ => rfl
  refine .choice (fun hbackslash => ?_) fun hbackslash => ?_
  · rw [hbackslash]
    exact fun _ => rfl
  refine .choice (fun hline => ?_) fun _ => ?_
  · rw [hline]
    exact fun _ => rfl
  refine .choice (fun hreturn => ?_) fun _ => ?_
  · rw [hreturn]
    exact fun _ => rfl
  refine .choice (fun htab => ?_) fun _ => ?_
  · rw [htab]
    exact fun _ => rfl
  refine .choice (fun hback => ?_) fun _ => ?_
  · rw [← hofNat hback]
    exact fun _ => rfl
  refine .choice (fun hfeed => ?_) fun _ => ?_
  · rw [← hofNat hfeed]
    exact fun _ => rfl
  refine .choice (fun hcontrol => ?_) fun hcontrol => ?_
  · exact spells_escapeUnit (Nat.lt_trans hcontrol (by decide))
  refine .choice (fun _ => ?_) fun _ => ?_
  · intro rest
    rw [Char.toString, String.toList_singleton]
    exact character_of_itself hquote hbackslash hcontrol rest
  · exact .choice spells_escapeUnit spells_escapeHalves

/-- No spelling starts with the closing quote mark, and none is empty. -/
theorem exists_head_escapeChar (ascii : Bool) (c : Char) :
    ∃ first tail, (escapeChar ascii c).toList = first :: tail ∧ first ≠ '"' := by
  have hread := spells_escapeChar ascii c []
  cases hspelled : (escapeChar ascii c).toList with
  | nil =>
      rw [hspelled] at hread
      cases hread
  | cons first tail =>
      refine ⟨first, tail, rfl, ?_⟩
      rintro rfl
      rw [hspelled] at hread
      simp [character?] at hread

/-! ## Texts -/

/-- The spelling of characters between quote marks. -/
def spelled (ascii : Bool) (cs : List Char) : List Char :=
  cs.flatMap fun c => (escapeChar ascii c).toList

theorem quote_toList (ascii : Bool) (s : String) :
    (quote ascii s).toList = '"' :: (spelled ascii s.toList ++ ['"']) := by
  simp [quote, spelled, String.toList_join, List.flatMap_map]

theorem content_spelled {cs : List Char} {steps : Nat} (hsteps : cs.length < steps)
    (rest : List Char) :
    content? steps (spelled ascii cs ++ '"' :: rest) = some (cs, rest) := by
  induction cs generalizing steps with
  | nil =>
      obtain ⟨steps, rfl⟩ : ∃ n, steps = n + 1 := ⟨steps - 1, by simp at hsteps; omega⟩
      rfl
  | cons c cs ih =>
      rw [List.length_cons] at hsteps
      obtain ⟨steps, rfl⟩ : ∃ n, steps = n + 1 := ⟨steps - 1, by omega⟩
      obtain ⟨first, tail, hfirst, hquote⟩ := exists_head_escapeChar ascii c
      have hread := spells_escapeChar ascii c (spelled ascii cs ++ '"' :: rest)
      have hsplit : spelled ascii (c :: cs) ++ '"' :: rest =
          first :: (tail ++ (spelled ascii cs ++ '"' :: rest)) := by
        simp [spelled, hfirst]
      rw [hfirst, List.cons_append] at hread
      rw [hsplit, content?]
      · simp [hread, ih (by omega : cs.length < steps)]
      · intro _ hhead
        exact absurd (List.cons.inj hhead).1 hquote

theorem length_le_spelled (ascii : Bool) (cs : List Char) :
    cs.length ≤ (spelled ascii cs).length := by
  induction cs with
  | nil => exact Nat.le_refl 0
  | cons c cs ih =>
      obtain ⟨first, tail, hfirst, -⟩ := exists_head_escapeChar ascii c
      rw [spelled, List.flatMap_cons, hfirst, List.length_append, List.length_cons,
        List.length_cons]
      exact Nat.le_trans (Nat.succ_le_succ ih) (by rw [spelled]; omega)

/-- A text is read back from what follows its opening quote mark. -/
theorem text_spelled (ascii : Bool) (s : String) (rest : List Char) :
    text? (spelled ascii s.toList ++ '"' :: rest) = some (s, rest) := by
  have hlength := length_le_spelled ascii s.toList
  have hsteps : s.toList.length < (spelled ascii s.toList ++ '"' :: rest).length + 1 := by
    rw [List.length_append]
    omega
  rw [text?, content_spelled hsteps]
  simp

/-! ## Integers -/

/-- What may follow a number: nothing that would go on with it. -/
def Ends (rest : List Char) : Prop :=
  ∀ c ∈ rest.head?, c.isDigit = false ∧ c ≠ '.' ∧ c ≠ 'e' ∧ c ≠ 'E'

theorem Ends.whole {digits : List Char} (hrest : Ends rest)
    (hdigits : ∀ c ∈ digits, c.isDigit = true) :
    (digits ++ rest).takeWhile Char.isDigit = digits ∧
      (digits ++ rest).dropWhile Char.isDigit = rest := by
  have hstop : rest.takeWhile Char.isDigit = [] ∧ rest.dropWhile Char.isDigit = rest := by
    cases rest with
    | nil => exact ⟨rfl, rfl⟩
    | cons c rest => simp [(hrest c rfl).1]
  rw [List.takeWhile_append_of_pos hdigits, List.dropWhile_append_of_pos hdigits, hstop.1,
    hstop.2, List.append_nil]
  exact ⟨rfl, rfl⟩

theorem digitsValue_toDigits (n : Nat) : Text.digitsValue (Nat.toDigits 10 n) = n := by
  have hvalue := Nat.ofDigitChars_ten_toDigits (n := n)
  rwa [Nat.ofDigitChars_eq_foldl] at hvalue

/-- Only zero is written with a leading zero. -/
theorem toDigits_leading_zero {n : Nat} {tail : List Char}
    (h : Nat.toDigits 10 n = '0' :: tail) : tail = [] := by
  induction n using Nat.strongRecOn generalizing tail with
  | _ n ih =>
      by_cases hn : n < 10
      · rw [Nat.toDigits_of_lt_base hn] at h
        exact (List.cons.inj h).2.symm
      · rw [Nat.toDigits_of_base_le (by decide) (by omega)] at h
        obtain ⟨first, more, hmore⟩ := List.exists_cons_of_ne_nil
          (Nat.toDigits_ne_nil (n := n / 10) (b := 10))
        rw [hmore, List.cons_append] at h
        obtain ⟨rfl, -⟩ := List.cons.inj h
        have hzero : n / 10 = 0 := by
          rw [← digitsValue_toDigits (n / 10), hmore, ih (n / 10) (by omega) hmore]
          rfl
        omega

theorem whole_toDigits (n : Nat) (hrest : Ends rest) :
    whole? (Nat.toDigits 10 n ++ rest) = some (Nat.toDigits 10 n, rest) := by
  obtain ⟨htake, hdrop⟩ := hrest.whole fun c hc =>
    Nat.isDigit_of_mem_toDigits (n := n) (by decide) (Nat.le_refl 10) hc
  rw [whole?, htake, hdrop]
  cases hdigits : Nat.toDigits 10 n with
  | nil => exact absurd hdigits Nat.toDigits_ne_nil
  | cons first tail =>
      split
      next heq => cases heq
      next heq =>
        obtain ⟨rfl, rfl⟩ := List.cons.inj heq
        exact absurd (toDigits_leading_zero hdigits) (List.cons_ne_nil _ _)
      next => rfl

theorem Ends.fraction (hrest : Ends rest) : fraction? rest = some (none, rest) := by
  cases rest with
  | nil => rfl
  | cons c rest =>
      rw [fraction?]
      intro _ heq
      exact (hrest c rfl).2.1 (List.cons.inj heq).1

theorem Ends.exponent (hrest : Ends rest) : exponent? rest = some (none, rest) := by
  cases rest with
  | nil => rfl
  | cons c rest => simp [exponent?, (hrest c rfl).2.2]

/-- The text of an integer, as far as it has one. -/
theorem intText_of_short {i : Int} (hi : i.natAbs < 10 ^ Number.maxDigits) :
    Number.intText i = .ok ((if i < 0 then "-" else "") ++ Nat.repr i.natAbs) := by
  rw [Number.intText, Nat.pow_eq, if_pos hi]

/-- The digits of a natural number start with a digit. -/
theorem exists_head_toDigits (n : Nat) :
    ∃ first tail, Nat.toDigits 10 n = first :: tail ∧ first.isDigit = true := by
  obtain ⟨first, tail, hfirst⟩ := List.exists_cons_of_ne_nil
    (Nat.toDigits_ne_nil (n := n) (b := 10))
  refine ⟨first, tail, hfirst, ?_⟩
  exact Nat.isDigit_of_mem_toDigits (b := 10) (n := n) (by decide) (Nat.le_refl 10)
    (by simp [hfirst])

/-- An integer is read back from its text. -/
theorem number_intText (i : Int) (hrest : Ends rest) :
    number? (((if i < 0 then "-" else "") ++ Nat.repr i.natAbs).toList ++ rest) =
      some (.int i, rest) := by
  have hwhole := whole_toDigits i.natAbs hrest
  rw [String.toList_append, List.append_assoc, Nat.toList_repr]
  split_ifs with hnegative
  · have hvalue : -(i.natAbs : Int) = i := by omega
    generalize i.natAbs = n at hwhole hvalue ⊢
    simp [number?, hwhole, hrest.fraction, hrest.exponent, digitsValue_toDigits, hvalue]
  · have hvalue : (i.natAbs : Int) = i := by omega
    obtain ⟨first, tail, hfirst, hdigit⟩ := exists_head_toDigits i.natAbs
    have hsign : ∀ more, Nat.toDigits 10 i.natAbs ++ rest = '-' :: more → False := by
      intro more heq
      rw [hfirst] at heq
      obtain ⟨rfl, -⟩ := List.cons.inj heq
      cases hdigit
    rw [String.toList_empty, List.nil_append, number?]
    · simp [hwhole, hrest.fraction, hrest.exponent, digitsValue_toDigits, hvalue]
    · exact hsign

end ShapeCheck.Json
