import Mathlib.Data.List.Forall2
import ShapeCheck.Json.Writer
import ShapeCheck.Proofs.JsonTokens
import ShapeCheck.Proofs.Outlines

/-!
# Reading JSON text back

Data is made of constants, integers, texts, lists, and mappings under texts.  It is read
back from its JSON text as it is, but for the identity of its parts.  Any layout will do that
puts nothing but blank space around commas, colons and brackets.

Main statement: data is read back from its text (`Data.read_write`).
-/

namespace ShapeCheck.Value

/-- A text, as opposed to a symbol that is one. -/
def IsText (key : Value) : Prop := ∃ mark s, key = atom mark (.text s false)

/-- What JSON has a notation for. -/
inductive Data : Value → Prop
  | null (mark : Nat) : Data (atom mark .null)
  | bool (mark : Nat) (b : Bool) : Data (atom mark (.bool b))
  | int (mark : Nat) {i : Int} (hi : i.natAbs < 10 ^ Number.maxDigits) :
      Data (atom mark (.number (.int i false)))
  | text (mark : Nat) (s : String) : Data (atom mark (.text s false))
  | list (mark : Nat) {items : List Value} (h : ∀ v ∈ items, Data v) :
      Data (sequence mark .list items)
  | dict (mark : Nat) {entries : List (Value × Value)} (hkeys : (dict entries).WellKeyed IsText)
      (h : ∀ e ∈ entries, Data e.2) : Data (mapping mark .dict entries)

/-- A text as a key comes out as the text that it is. -/
theorem IsText.exists_stripped {key : Value} (h : IsText key) :
    ∃ s, key.stripped = text s ∧ key.asText? = some s := by
  obtain ⟨mark, s, rfl⟩ := h
  exact ⟨s, rfl, rfl⟩

/-- Entries under texts that differ make a mapping as they are, and so they do without their
identity. -/
theorem collectEntries_strippedEntries {entries : List (Value × Value)}
    (hkeys : (dict entries).WellKeyed IsText) :
    collectEntries (strippedEntries entries) = strippedEntries entries := by
  obtain ⟨htexts, hapart⟩ := hkeys
  refine mergeEntries_of_apart (by simp) ?_
  rw [strippedEntries_eq_map, List.pairwise_map]
  refine hapart.imp_of_mem ?_
  intro e e' _ he' hne
  obtain ⟨s, hstripped, htext⟩ := (htexts e' he').1.exists_stripped
  rw [Bool.eq_false_iff, Ne, sameKey_iff_asText htext] at hne
  rw [Bool.eq_false_iff, Ne, hstripped, sameKey_iff_asText rfl, asText_stripped]
  exact hne

end ShapeCheck.Value

namespace ShapeCheck.Json

open Reader Value

/-! ## Blank space -/

/-- Blank space between tokens. -/
def Blank (cs : List Char) : Prop := ∀ c ∈ cs, isSpace c = true

variable {o : Options} {c first : Char} {cs blank rest tail written : List Char} {v : Value}
  {steps level : Nat}

theorem skipSpace_of_head (hc : isSpace c = false) : skipSpace (c :: cs) = c :: cs := by
  rw [skipSpace, List.dropWhile_cons_of_neg (by simp [hc])]

theorem skipSpace_blank (hblank : Blank blank) (hc : isSpace c = false) :
    skipSpace (blank ++ c :: cs) = c :: cs := by
  rw [skipSpace, List.dropWhile_append_of_pos hblank]
  exact skipSpace_of_head hc

/-- Blank space in front of a value is passed over. -/
theorem value_blank (hblank : Blank blank) (steps : Nat) (cs : List Char) :
    value? steps (blank ++ cs) = value? steps cs := by
  cases steps with
  | zero => rfl
  | succ steps => rw [value?, value?, skipSpace, skipSpace, List.dropWhile_append_of_pos hblank]

theorem Ends.of_blank (hblank : Blank blank) (h : Ends (c :: rest)) :
    Ends (blank ++ c :: rest) := by
  cases blank with
  | nil => exact h
  | cons b blank =>
      intro d hd
      obtain rfl := Option.some.inj hd
      have hspace : isSpace b = true := hblank b List.mem_cons_self
      simp only [isSpace, Bool.or_eq_true, decide_eq_true_eq] at hspace
      rcases hspace with ((rfl | rfl) | rfl) | rfl <;> decide

theorem Ends.of_head (hc : c.isDigit = false ∧ c ≠ '.' ∧ c ≠ 'e' ∧ c ≠ 'E') :
    Ends (c :: rest) := by
  intro d hd
  obtain rfl := Option.some.inj hd
  exact hc

/-! ## Layouts -/

/-- A layout has blank space only around commas, colons and brackets, and leaves the
entries of an object in their order. -/
structure Options.Legible (o : Options) : Prop where
  newLine : ∀ level, Blank (o.newLine level).toList
  separator : ∀ level, ∃ blank, Blank blank ∧ (o.separator level).toList = ',' :: blank
  keySeparator : ∃ blank, Blank blank ∧ o.keySeparator.toList = ':' :: blank
  unsorted : o.sortKeys = false

/-- The layout with a number of blanks for each level of nesting, or without lines. -/
def Options.layout (indent : Option Nat) (ascii : Bool) : Options :=
  { Options.standard with
    indent := indent.map fun width => String.ofList (List.replicate width ' ')
    itemSeparator := if indent.isSome then "," else ", "
    ascii }

theorem Options.layout_legible (indent : Option Nat) (ascii : Bool) :
    (layout indent ascii).Legible := by
  have hspace : Blank [' '] := by simp [Blank, isSpace]
  have hnewLine : ∀ level, Blank ((layout indent ascii).newLine level).toList := by
    intro level c hc
    cases indent with
    | none => cases hc
    | some width =>
        have hline : c = '\n' ∨ c = ' ' := by
          simp only [Options.newLine, layout, Option.map_some, String.toList_append,
            String.toList_join, List.mem_append, List.mem_flatMap, List.mem_replicate] at hc
          rcases hc with hbreak | ⟨step, ⟨-, rfl⟩, hblank⟩
          · exact .inl (List.mem_singleton.mp hbreak)
          · rw [String.toList_ofList] at hblank
            exact .inr (List.eq_of_mem_replicate hblank)
        rcases hline with rfl | rfl <;> decide
  refine ⟨hnewLine, ?_, ⟨[' '], hspace, String.toList_ofList⟩, rfl⟩
  intro level
  cases indent with
  | none => exact ⟨[' '], hspace, by simp [Options.separator, Options.newLine, layout]⟩
  | some width => exact ⟨_, hnewLine level, by simp [Options.separator, layout]⟩

/-! ## Values that are read back -/

/-- A value is read back from characters, whatever follows them. -/
structure ReadBack (v : Value) (written : List Char) : Prop where
  head : ∃ first tail, written = first :: tail ∧ isSpace first = false ∧ first ≠ ']'
  read : ∀ {steps rest}, Ends rest → written.length ≤ steps →
    value? steps (written ++ rest) = some (v.stripped, rest)

/-- A scalar starts with neither blank space nor a bracket. -/
theorem ReadBack.of_scalar (hfirst : isSpace first = false ∧ first ∉ ['[', ']', '\x7b'])
    (hread : ∀ {rest}, Ends rest → scalar? (first :: tail ++ rest) = some (v.stripped, rest)) :
    ReadBack v (first :: tail) := by
  obtain ⟨hspace, hbrackets⟩ := hfirst
  simp only [List.mem_cons, List.not_mem_nil, or_false, not_or] at hbrackets
  refine ⟨⟨first, tail, rfl, hspace, hbrackets.2.1⟩, ?_⟩
  intro steps rest hrest hsteps
  obtain ⟨steps, rfl⟩ : ∃ n, steps = n + 1 := ⟨steps - 1, by rw [List.length_cons] at hsteps; omega⟩
  rw [value?, List.cons_append, skipSpace_of_head hspace]
  simp only
  split
  · next heq => exact absurd (List.cons.inj heq).1 hbrackets.1
  · next heq => exact absurd (List.cons.inj heq).1 hbrackets.2.2
  · exact hread hrest

theorem ReadBack.text (mark : Nat) (ascii : Bool) (s : String) :
    ReadBack (.atom mark (.text s false)) (quote ascii s).toList := by
  rw [quote_toList]
  refine .of_scalar (by decide) ?_
  intro rest _
  have hread := text_spelled ascii s rest
  simp [scalar?, hread, stripped, Value.text]

theorem ReadBack.null (mark : Nat) : ReadBack (.atom mark .null) "null".toList := by
  rw [show "null".toList = 'n' :: "ull".toList by simp]
  refine .of_scalar (by decide) ?_
  intro rest _
  simp [scalar?, word?, stripped, Value.null]

theorem ReadBack.bool (mark : Nat) (b : Bool) :
    ReadBack (.atom mark (.bool b)) (if b then "true" else "false").toList := by
  cases b with
  | true =>
      rw [if_pos rfl, show "true".toList = 't' :: "rue".toList by simp]
      refine .of_scalar (by decide) ?_
      intro rest _
      simp [scalar?, word?, stripped, Value.bool]
  | false =>
      rw [if_neg (by decide), show "false".toList = 'f' :: "alse".toList by simp]
      refine .of_scalar (by decide) ?_
      intro rest _
      simp [scalar?, word?, stripped, Value.bool]

/-- Blank space, brackets, and what other scalars than numbers start with. -/
def otherHeads : List Char := [' ', '\n', '\r', '\t', '[', ']', '\x7b', '"', 'n', 't', 'f']

/-- The text of an integer starts with its sign or a digit. -/
theorem exists_head_intText (i : Int) :
    ∃ first tail, ((if i < 0 then "-" else "") ++ Nat.repr i.natAbs).toList = first :: tail ∧
      (first = '-' ∨ first.isDigit = true) := by
  obtain ⟨first, tail, hfirst, hdigit⟩ := exists_head_toDigits i.natAbs
  rw [String.toList_append, Nat.toList_repr, hfirst]
  split_ifs
  · exact ⟨'-', first :: tail, by simp, .inl rfl⟩
  · exact ⟨first, tail, by simp, .inr hdigit⟩

theorem ReadBack.int (mark : Nat) (i : Int) :
    ReadBack (.atom mark (.number (.int i false)))
      ((if i < 0 then "-" else "") ++ Nat.repr i.natAbs).toList := by
  obtain ⟨first, tail, hhead, hfirst⟩ := exists_head_intText i
  have hother : ∀ c ∈ otherHeads, first ≠ c := by
    rintro c hc rfl
    rcases hfirst with rfl | hdigit
    · exact absurd hc (by decide)
    · have hdigits : ∀ c ∈ otherHeads, c.isDigit = false := by
        simp [otherHeads, Char.isDigit]
      rw [hdigits first hc] at hdigit
      cases hdigit
  simp only [otherHeads, List.forall_mem_cons] at hother
  rw [hhead]
  refine .of_scalar ?_ ?_
  · simp [isSpace, hother]
  · intro rest hrest
    rw [scalar?, ← hhead, number_intText i hrest]
    · rfl
    all_goals simp [hother]

/-! ## Arrays and objects -/

theorem items_blank (hblank : Blank blank) (steps : Nat) (cs : List Char) :
    items? steps (blank ++ cs) = items? steps cs := by
  cases steps with
  | zero => rfl
  | succ steps => rw [items?, items?, value_blank hblank]

/-- Values between commas are read back up to the bracket after them. -/
theorem items_read {items : List Value} {writtens : List (List Char)}
    (h : List.Forall₂ ReadBack items writtens) (hitems : items ≠ []) {gap : List Char}
    (hgap : Blank gap) (hblank : Blank blank)
    (hsteps : ((',' :: gap).intercalate writtens).length < steps) (rest : List Char) :
    items? steps ((',' :: gap).intercalate writtens ++ (blank ++ ']' :: rest)) =
      some (strippedItems items, rest) := by
  induction h generalizing steps with
  | nil => exact absurd rfl hitems
  | @cons v written items writtens hfirst hmore ih =>
      obtain ⟨steps, rfl⟩ : ∃ n, steps = n + 1 := ⟨steps - 1, by omega⟩
      cases hmore with
      | nil =>
          rw [List.intercalate_singleton] at hsteps ⊢
          have hends : Ends (blank ++ ']' :: rest) := .of_blank hblank (.of_head (by decide))
          have hclose : skipSpace (blank ++ ']' :: rest) = ']' :: rest :=
            skipSpace_blank hblank (by decide)
          simp [items?, hfirst.read hends (Nat.le_of_lt_succ hsteps), hclose, strippedItems]
      | @cons v' written' items writtens hsecond hmore =>
          rw [List.intercalate_cons_cons] at hsteps ⊢
          simp only [List.length_append, List.length_cons] at hsteps
          have hmoreLength : ((',' :: gap).intercalate (written' :: writtens)).length < steps := by
            omega
          have hread := ih (List.cons_ne_nil _ _) hmoreLength
          have hends : Ends (',' :: (gap ++ ((',' :: gap).intercalate (written' :: writtens) ++
              (blank ++ ']' :: rest)))) :=
            .of_head (by decide)
          have hlength : written.length ≤ steps := by omega
          have hvalue := hfirst.read hends hlength
          simp only [List.append_assoc, List.cons_append, items?, hvalue, Option.bind_eq_bind,
            Option.bind_some, skipSpace_of_head (c := ',') (by decide), items_blank hgap, hread]
          rfl

theorem value_of_items (hblank : Blank blank) (hspace : isSpace first = false)
    (hclose : first ≠ ']') :
    value? (steps + 1) ('[' :: (blank ++ first :: tail)) =
      (items? steps (first :: tail)).map fun (items, rest) => (.list items, rest) := by
  rw [value?, skipSpace_of_head (by decide)]
  simp only [skipSpace_blank hblank hspace]
  split
  next heq => exact absurd (List.cons.inj heq).1 hclose
  next => rfl

theorem ReadBack.list (mark : Nat) {items : List Value} {writtens : List (List Char)}
    (h : List.Forall₂ ReadBack items writtens) (hitems : items ≠ []) {gap start stop : List Char}
    (hgap : Blank gap) (hstart : Blank start) (hstop : Blank stop) :
    ReadBack (.sequence mark .list items)
      ('[' :: (start ++ ((',' :: gap).intercalate writtens ++ (stop ++ [']'])))) := by
  refine ⟨⟨'[', _, rfl, by decide, by decide⟩, ?_⟩
  intro steps rest hrest hsteps
  simp only [List.length_cons, List.length_append] at hsteps
  obtain ⟨steps, rfl⟩ : ∃ n, steps = n + 1 := ⟨steps - 1, by omega⟩
  have hlength : ((',' :: gap).intercalate writtens).length < steps := by omega
  have hread := items_read h hitems hgap hstop hlength rest
  obtain ⟨first, tail, hfirst, hspace, hclose⟩ : ∃ first tail,
      (',' :: gap).intercalate writtens = first :: tail ∧ isSpace first = false ∧ first ≠ ']' := by
    cases h with
    | nil => exact absurd rfl hitems
    | cons hv hmore =>
        obtain ⟨first, tail, rfl, hfirst⟩ := hv.head
        cases hmore with
        | nil => exact ⟨first, tail, List.intercalate_singleton, hfirst⟩
        | cons => exact ⟨first, _, List.intercalate_cons_cons, hfirst⟩
  rw [hfirst, List.cons_append] at hread
  simp only [hfirst, List.cons_append, List.append_assoc, List.nil_append]
  rw [value_of_items hstart hspace hclose, hread]
  rfl

theorem ReadBack.emptyList (mark : Nat) : ReadBack (.sequence mark .list []) ['[', ']'] := by
  refine ⟨⟨'[', _, rfl, by decide, by decide⟩, ?_⟩
  intro steps rest _ hsteps
  obtain ⟨steps, rfl⟩ : ∃ n, steps = n + 1 := ⟨steps - 1, by simp at hsteps; omega⟩
  rfl

/-- An entry is read back from the spelling of its key, a colon and its item. -/
inductive EntryReadBack (ascii : Bool) (gap : List Char) : Value × Value → List Char → Prop
  | mk {e : Value × Value} {s : String} {written : List Char} (hkey : e.1.stripped = .text s)
      (hitem : ReadBack e.2 written) :
      EntryReadBack ascii gap e ((quote ascii s).toList ++ (':' :: (gap ++ written)))

theorem key_read (ascii : Bool) (s : String) (rest : List Char) :
    key? ((quote ascii s).toList ++ ':' :: rest) = some (s, rest) := by
  have hread := text_spelled ascii s (':' :: rest)
  rw [quote_toList, key?, List.cons_append, skipSpace_of_head (by decide)]
  simp [hread, skipSpace_of_head (c := ':') (by decide)]

theorem key_blank (hblank : Blank blank) (cs : List Char) : key? (blank ++ cs) = key? cs := by
  rw [key?, key?, skipSpace, skipSpace, List.dropWhile_append_of_pos hblank]

theorem entries_blank (hblank : Blank blank) (steps : Nat) (cs : List Char) :
    entries? steps (blank ++ cs) = entries? steps cs := by
  cases steps with
  | zero => rfl
  | succ steps => rw [entries?, entries?, key_blank hblank]

/-- Entries between commas are read back up to the brace after them. -/
theorem entries_read {ascii : Bool} {entries : List (Value × Value)}
    {writtens : List (List Char)} {gap colonGap : List Char}
    (h : List.Forall₂ (EntryReadBack ascii colonGap) entries writtens) (hentries : entries ≠ [])
    (hgap : Blank gap) (hcolonGap : Blank colonGap) (hblank : Blank blank)
    (hsteps : ((',' :: gap).intercalate writtens).length < steps) (rest : List Char) :
    entries? steps ((',' :: gap).intercalate writtens ++ (blank ++ '\x7d' :: rest)) =
      some (strippedEntries entries, rest) := by
  induction h generalizing steps with
  | nil => exact absurd rfl hentries
  | cons hfirst hmore ih =>
      obtain ⟨steps, rfl⟩ : ∃ n, steps = n + 1 := ⟨steps - 1, by omega⟩
      obtain @⟨s, written, hkey, hitem⟩ := hfirst
      cases hmore with
      | nil =>
          rw [List.intercalate_singleton] at hsteps ⊢
          have hends : Ends (blank ++ '\x7d' :: rest) := .of_blank hblank (.of_head (by decide))
          have hclose : skipSpace (blank ++ '\x7d' :: rest) = '\x7d' :: rest :=
            skipSpace_blank hblank (by decide)
          simp only [List.length_append, List.length_cons] at hsteps
          have hlength : written.length ≤ steps := by omega
          have hvalue := hitem.read hends hlength
          simp [entries?, key_read, value_blank hcolonGap, hvalue, hclose, strippedEntries, hkey]
      | @cons e' written' entries writtens hsecond hmore =>
          rw [List.intercalate_cons_cons] at hsteps ⊢
          simp only [List.length_append, List.length_cons] at hsteps
          have hmoreLength : ((',' :: gap).intercalate (written' :: writtens)).length < steps := by
            omega
          have hread := ih (List.cons_ne_nil _ _) hmoreLength
          have hends : Ends (',' :: (gap ++ ((',' :: gap).intercalate (written' :: writtens) ++
              (blank ++ '\x7d' :: rest)))) :=
            .of_head (by decide)
          have hlength : written.length ≤ steps := by omega
          have hvalue := hitem.read hends hlength
          simp only [List.append_assoc, List.cons_append, entries?, key_read,
            value_blank hcolonGap, hvalue, Option.bind_eq_bind, Option.bind_some,
            skipSpace_of_head (c := ',') (by decide), entries_blank hgap, hread]
          rw [← hkey]
          rfl

theorem value_of_entries (hblank : Blank blank) (hspace : isSpace first = false)
    (hclose : first ≠ '\x7d') :
    value? (steps + 1) ('\x7b' :: (blank ++ first :: tail)) =
      (entries? steps (first :: tail)).map fun (entries, rest) =>
        (.dict (collectEntries entries), rest) := by
  rw [value?, skipSpace_of_head (by decide)]
  simp only [skipSpace_blank hblank hspace]
  split
  next heq => exact absurd (List.cons.inj heq).1 hclose
  next => rfl

theorem ReadBack.emptyDict (mark : Nat) : ReadBack (.mapping mark .dict []) ['\x7b', '\x7d'] := by
  refine ⟨⟨'\x7b', _, rfl, by decide, by decide⟩, ?_⟩
  intro steps rest _ hsteps
  obtain ⟨steps, rfl⟩ : ∃ n, steps = n + 1 := ⟨steps - 1, by simp at hsteps; omega⟩
  rfl

theorem ReadBack.dict (mark : Nat) {ascii : Bool} {entries : List (Value × Value)}
    {writtens : List (List Char)} {gap colonGap start stop : List Char}
    (h : List.Forall₂ (EntryReadBack ascii colonGap) entries writtens) (hentries : entries ≠ [])
    (hkeys : (Value.dict entries).WellKeyed IsText) (hgap : Blank gap)
    (hcolonGap : Blank colonGap) (hstart : Blank start) (hstop : Blank stop) :
    ReadBack (.mapping mark .dict entries)
      ('\x7b' :: (start ++ ((',' :: gap).intercalate writtens ++ (stop ++ ['\x7d'])))) := by
  refine ⟨⟨'\x7b', _, rfl, by decide, by decide⟩, ?_⟩
  intro steps rest hrest hsteps
  simp only [List.length_cons, List.length_append] at hsteps
  obtain ⟨steps, rfl⟩ : ∃ n, steps = n + 1 := ⟨steps - 1, by omega⟩
  have hlength : ((',' :: gap).intercalate writtens).length < steps := by omega
  have hread := entries_read h hentries hgap hcolonGap hstop hlength rest
  obtain ⟨tail, hquote⟩ : ∃ tail, (',' :: gap).intercalate writtens = '"' :: tail := by
    cases h with
    | nil => exact absurd rfl hentries
    | cons he hmore =>
        obtain ⟨-, -⟩ := he
        rw [quote_toList]
        cases hmore with
        | nil => exact ⟨_, List.intercalate_singleton⟩
        | cons => exact ⟨_, List.intercalate_cons_cons⟩
  rw [hquote, List.cons_append] at hread
  simp only [hquote, List.cons_append, List.append_assoc, List.nil_append]
  rw [value_of_entries hstart (by decide) (by decide), hread]
  exact congrArg some (congrArg (·, rest)
    (congrArg Value.dict (collectEntries_strippedEntries hkeys)))

/-! ## Writing -/

/-- A value is written at a level of nesting, and read back. -/
def WrittenAt (o : Options) (level : Nat) (v : Value) : Prop :=
  ∃ s, writeAt o level v = .ok s ∧ ReadBack v s.toList

theorem exists_writeItems {items : List Value} (h : ∀ v ∈ items, WrittenAt o level v) :
    ∃ texts, writeItems o level items = .ok texts ∧
      List.Forall₂ ReadBack items (texts.map String.toList) := by
  induction items with
  | nil => exact ⟨[], rfl, .nil⟩
  | cons v items ih =>
      rw [List.forall_mem_cons] at h
      obtain ⟨s, hs, hv⟩ := h.1
      obtain ⟨texts, htexts, hitems⟩ := ih h.2
      refine ⟨s :: texts, ?_, .cons hv hitems⟩
      rw [writeItems, hs, htexts]
      rfl

/-- What a layout writes between a key and its item, after the colon. -/
theorem exists_joinEntries (level : Nat) {entries : List (Value × Value)} {gap : List Char}
    (hgap : o.keySeparator.toList = ':' :: gap) (hkeys : ∀ e ∈ entries, IsText e.1)
    (h : ∀ e ∈ entries, WrittenAt o (level + 1) e.2) :
    ∃ texts, joinEntries o level (writeEntries o (level + 1) entries) = .ok texts ∧
      List.Forall₂ (EntryReadBack o.ascii gap) entries (texts.map String.toList) := by
  induction entries with
  | nil => exact ⟨[], rfl, .nil⟩
  | cons e entries ih =>
      rw [List.forall_mem_cons] at hkeys h
      obtain ⟨key, item⟩ := e
      obtain ⟨⟨mark, name, rfl⟩, hkeys⟩ := hkeys
      obtain ⟨⟨s, hs, hitem⟩, h⟩ := h
      obtain ⟨texts, htexts, hentries⟩ := ih hkeys h
      refine ⟨(quote o.ascii name ++ o.keySeparator ++ s) :: texts, ?_, .cons ?_ hentries⟩
      · rw [writeEntries, joinEntries, hs, htexts]
        rfl
      · rw [String.toList_append, String.toList_append, hgap, List.append_assoc]
        exact .mk rfl hitem

theorem bracketed_toList {open' close : Char} {gap : List Char} (level : Nat)
    (hgap : (o.separator (level + 1)).toList = ',' :: gap) (texts : List String) :
    (o.bracketed level (String.singleton open') (String.singleton close) texts).toList =
      open' :: ((o.newLine (level + 1)).toList ++
        ((',' :: gap).intercalate (texts.map String.toList) ++
          ((o.newLine level).toList ++ [close]))) := by
  simp [Options.bracketed, String.toList_intercalate, hgap]

/-- The text of an object with entries, in their order. -/
theorem objectText_of_unsorted (hsort : o.sortKeys = false)
    {entries : List (Value × Except Fault String)} (hentries : entries ≠ []) :
    objectText o level entries =
      (joinEntries o level entries).map (o.bracketed level "\x7b" "\x7d") := by
  rw [objectText, List.isEmpty_eq_false_iff.mpr hentries, hsort]
  change (joinEntries o level entries >>= fun texts => pure (o.bracketed level _ _ texts)) = _
  cases joinEntries o level entries <;> rfl

variable (ho : o.Legible)

include ho

/-- Data is written at every level, and read back. -/
theorem writtenAt_of_data (hv : Data v) (level : Nat) : WrittenAt o level v := by
  induction hv generalizing level with
  | null mark => exact ⟨"null", rfl, .null mark⟩
  | bool mark b => exact ⟨_, rfl, .bool mark b⟩
  | int mark hi => exact ⟨_, intText_of_short hi, .int mark _⟩
  | text mark s => exact ⟨_, rfl, .text mark o.ascii s⟩
  | @list mark items _ ih =>
      cases items with
      | nil => exact ⟨"[]", rfl, .emptyList mark⟩
      | cons first items =>
          obtain ⟨texts, htexts, hread⟩ := exists_writeItems fun v hv => ih v hv (level + 1)
          obtain ⟨gap, hgap, hseparator⟩ := ho.separator (level + 1)
          refine ⟨o.bracketed level "[" "]" texts, ?_, ?_⟩
          · rw [writeAt, htexts]
            rfl
          · have hlist := ReadBack.list mark hread (List.cons_ne_nil _ _) hgap
              (ho.newLine (level + 1)) (ho.newLine level)
            rwa [← bracketed_toList level hseparator] at hlist
  | @dict mark entries hkeys _ ih =>
      cases entries with
      | nil => exact ⟨"\x7b\x7d", rfl, .emptyDict mark⟩
      | cons first entries =>
          obtain ⟨colonGap, hcolonGap, hcolon⟩ := ho.keySeparator
          obtain ⟨texts, htexts, hread⟩ := exists_joinEntries level hcolon
            (fun e he => (hkeys.1 e he).1) fun e he => ih e he (level + 1)
          obtain ⟨gap, hgap, hseparator⟩ := ho.separator (level + 1)
          refine ⟨o.bracketed level "\x7b" "\x7d" texts, ?_, ?_⟩
          · rw [writeAt, writeEntries, objectText_of_unsorted ho.unsorted (List.cons_ne_nil _ _),
              ← writeEntries, htexts]
            rfl
          · have hdict := ReadBack.dict mark hread (List.cons_ne_nil _ _) hkeys hgap hcolonGap
              (ho.newLine (level + 1)) (ho.newLine level)
            rwa [← bracketed_toList level hseparator] at hdict

end ShapeCheck.Json

namespace ShapeCheck.Value

open Json

/-- Data is written, and read back from its text. -/
theorem Data.read_write {o : Options} (ho : o.Legible) {v : Value} (hv : Data v) :
    ∃ s, write o v = .ok s ∧ read? s = some v.stripped := by
  obtain ⟨s, hs, hread⟩ := writtenAt_of_data ho hv 0
  refine ⟨s, hs, ?_⟩
  have hends : Ends [] := nofun
  have hlength : s.toList.length ≤ 2 * s.length + 2 := by
    rw [String.length_toList]
    omega
  have hvalue := hread.read hends hlength
  rw [List.append_nil] at hvalue
  rw [read?, hvalue]
  rfl

end ShapeCheck.Value
