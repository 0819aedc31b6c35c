import Mathlib.Logic.Relation
import Mathlib.Tactic.SplitIfs
import ShapeCheck.Mismatch.Tree
import ShapeCheck.Proofs.Refusals

/-!
# What has no text

A text is put together from the texts of parts, and a tree from the trees of parts.  Such a
wording fails with its first part that fails, so that a fault comes from something without
parts: an integer with too many digits, a predicate whose name cannot be told, or an instance
whose class fails to give it a text.

Main statement: a wording fails exactly if it comes to something that has no text of its own
(`Wording.fault_eq_none_iff`), and for a reason that this has (`Wording.unspoken_of_fault`).
-/

namespace ShapeCheck

variable {α β γ δ : Type}

/-- The fault that a computation ends in, if it fails. -/
def fault? : Except Fault α → Option Fault
  | .ok _ => none
  | .error fault => some fault

theorem fault_none_iff {x : Except Fault α} : fault? x = none ↔ ∃ a, x = .ok a := by
  cases x <;> simp [fault?]

theorem fault_some_iff {x : Except Fault α} {fault : Fault} :
    fault? x = some fault ↔ x = .error fault := by
  cases x <;> simp [fault?]

@[simp]
theorem fault_ok (a : α) : fault? (.ok a) = none := rfl

@[simp]
theorem fault_pure (a : α) : fault? (pure a) = none := rfl

@[simp]
theorem fault_map (f : α → β) (x : Except Fault α) : fault? (x.map f) = fault? x := by
  cases x <;> rfl

@[simp]
theorem fault_functor_map (f : α → β) (x : Except Fault α) : fault? (f <$> x) = fault? x := by
  cases x <;> rfl

@[simp]
theorem fault_map₂ (f : α → β → γ) (x : Except Fault α) (y : Except Fault β) :
    fault? (x >>= fun a => f a <$> y) = (fault? x).or (fault? y) := by
  cases x <;> cases y <;> rfl

@[simp]
theorem fault_map₃ (f : α → β → γ → δ) (x : Except Fault α) (y : Except Fault β)
    (z : Except Fault γ) :
    fault? (x >>= fun a => y >>= fun b => f a b <$> z) =
      (fault? x).or ((fault? y).or (fault? z)) := by
  cases x <;> cases y <;> cases z <;> rfl

/-! ## Lists that are laid out -/

/-- Schemas are laid out one after another. -/
theorem Value.forall_mem_outlineItems {P : Value → Prop} {items laid : List Value}
    (hitems : ∀ d ∈ items, ∀ t, d.outline = .ok t → P t) (h : outlineItems items = .ok laid) :
    ∀ t ∈ laid, P t := by
  induction items generalizing laid with
  | nil =>
      obtain rfl := Except.ok.inj h
      simp
  | cons d items ih =>
      rw [List.forall_mem_cons] at hitems
      rw [outlineItems] at h
      obtain ⟨t, ht, h⟩ := bind_ok_iff.mp h
      obtain ⟨laid, hlaid, h⟩ := bind_ok_iff.mp h
      obtain rfl := Except.ok.inj h
      exact List.forall_mem_cons.mpr ⟨hitems.1 t ht, ih hitems.2 hlaid⟩

/-- The entries of a shape are laid out one after another, by key and schema. -/
theorem Value.forall_mem_outlineEntries {P Q : Value → Prop}
    {entries laid : List (Value × Value)}
    (hkeys : ∀ e ∈ entries, ∀ key, outlineKey e.1 = .ok key → P key)
    (hitems : ∀ e ∈ entries, ∀ t, e.2.outline = .ok t → Q t)
    (h : outlineEntries entries = .ok laid) : ∀ e ∈ laid, P e.1 ∧ Q e.2 := by
  induction entries generalizing laid with
  | nil =>
      obtain rfl := Except.ok.inj h
      simp
  | cons e entries ih =>
      rw [List.forall_mem_cons] at hkeys hitems
      rw [outlineEntries] at h
      obtain ⟨key, hkey, h⟩ := bind_ok_iff.mp h
      obtain ⟨t, ht, h⟩ := bind_ok_iff.mp h
      obtain ⟨laid, hlaid, h⟩ := bind_ok_iff.mp h
      obtain rfl := Except.ok.inj h
      exact List.forall_mem_cons.mpr ⟨⟨hkeys.1 key hkey, hitems.1 t ht⟩, ih hkeys.2 hitems.2 hlaid⟩

/-- Mismatches are laid out one after another. -/
theorem Mismatch.forall_mem_trees {P : Value → Prop} {errors : List Problem} {ts : List Value}
    (herrors : ∀ m ∈ errors, ∀ t, m.tree = .ok t → P t) (h : trees errors = .ok ts) :
    ∀ t ∈ ts, P t := by
  induction errors generalizing ts with
  | nil =>
      obtain rfl := Except.ok.inj h
      simp
  | cons m errors ih =>
      rw [List.forall_mem_cons] at herrors
      rw [trees] at h
      obtain ⟨t, ht, h⟩ := bind_ok_iff.mp h
      obtain ⟨ts, hts, h⟩ := bind_ok_iff.mp h
      obtain rfl := Except.ok.inj h
      exact List.forall_mem_cons.mpr ⟨herrors.1 t ht, ih herrors.2 hts⟩

/-! ## Wordings and their parts -/

/-- Something that is to be told: a value, a schema or a mismatch, as a text or as a tree, or
one of the three things that may have no text of their own. -/
inductive Wording where
  | shown (v : Value)
  | plain (v : Value)
  | described (d : Value)
  | outlined (d : Value)
  /-- A mismatch inside a larger value. -/
  | shownMismatch (m : Problem)
  /-- A mismatch on lines of its own. -/
  | told (m : Problem)
  /-- A mismatch as a tree. -/
  | laid (m : Problem)
  | digits (i : Int)
  | name (predicate : Value)
  /-- The text that the class of an instance decides on. -/
  | decided (text : Except Fault String)

namespace Wording

open Value

/-- The fault of telling something. -/
def fault : Wording → Option Fault
  | shown v => fault? v.shown
  | plain v => fault? v.plain
  | described d => fault? d.describe
  | outlined d => fault? d.outline
  | shownMismatch m => fault? (Value.shownMismatch m)
  | told m => fault? (m.text "")
  | laid m => fault? m.tree
  | digits i => fault? (Number.intText i)
  | name p => fault? (p.predicateName "")
  | decided text => fault? text

/-- The fault of something that has no text of its own. -/
def ownFault : Wording → Option Fault
  | digits i => fault? (Number.intText i)
  | name p => fault? (p.attribute? "__name__")
  | decided text => fault? text
  | _ => none

/-- The integers that a number is told by. -/
def ofNumber : Number → List Wording
  | .int i _ => [digits i]
  | .fraction q => [digits q.num, digits q.den]
  | _ => []

/-- The integers that an atom is told by. -/
def ofAtom : Atom → List Wording
  | .number n => ofNumber n
  | .symbol (.numeric _ _ content) => [digits content]
  | _ => []

/-- A symbol that is a number also tells the number inside a larger value. -/
def ofShownAtom : Atom → List Wording
  | .symbol (.quantity _ _ content) => ofNumber content
  | a => ofAtom a

/-- As a literal it is told by the number alone if this is an integer. -/
def ofLiteral : Atom → List Wording
  | .symbol (.quantity _ _ (.int i _)) => [digits i]
  | a => ofAtom a

/-- The text of an instance, if its class decides it. -/
def ofDecided (text : Option (Except Fault String)) : List Wording := text.toList.map decided

/-- The key of a described shape is told by its plain text, unless it is a text. -/
def ofKey (key : Value) : List Wording := if key.asText?.isSome then [] else [plain key]

/-- A key is laid out as it is, or by its plain text. -/
def ofLaidKey : Value → List Wording
  | .atom _ .null | .atom _ (.bool _) | .atom _ (.text ..) | .atom _ (.number (.int ..))
  | .atom _ (.number (.binary _)) | .atom _ (.symbol (.textual ..))
  | .atom _ (.symbol (.numeric ..)) | .atom _ (.symbol (.quantity _ _ (.int ..)))
  | .atom _ (.symbol (.quantity _ _ (.binary _))) => []
  | key => [plain key]

/-- The entries of a mapping inside a larger value. -/
def ofEntries (entries : List (Value × Value)) : List Wording :=
  entries.flatMap fun e => [shown e.1, shown e.2]

def ofShown : Value → List Wording
  | .atom _ a => ofShownAtom a
  | .sequence _ _ items | .bag _ _ items => items.map shown
  | .mapping _ _ entries => ofEntries entries
  | .range _ start stop step => [digits start, digits stop, digits step]
  | .record _ fields => fields.map fun f => shown f.2
  | .object _ layers _ _ => ofDecided (layers.reverse.findSome? Layer.shown)
  | .method self label => if self.tellsOwner label then [shown self] else []
  | .applied _ inner | .decorated _ inner => [shown inner]
  | .tagged _ _ (.checker _ p) => [name p]
  | .tagged _ _ (.union alternatives) => alternatives.map shown
  | .mismatch _ m => [shownMismatch m]
  | _ => []

def ofForm : Form Value → List Wording
  | .checker _ d | .array d | .record d => [shown d]
  | .optional required optional => ofEntries required ++ ofEntries optional
  | .union alternatives => alternatives.map shown
  | .bare | .atomic | .family _ => []

def ofPlain : Value → List Wording
  | .atom _ a => ofAtom a
  | v@(.object _ layers _ _) =>
    match layers.reverse.findSome? Layer.text with
    | some text => [decided text]
    | none => [shown v]
  | .mismatch _ m => [told m]
  | .tagged _ _ form => ofForm form
  | v => [shown v]

def ofDescribedEntries (entries : List (Value × Value)) : List Wording :=
  entries.flatMap fun e => ofKey e.1 ++ [described e.2]

def ofDescribed : Value → List Wording
  | .tagged _ _ (.array d) | .tagged _ _ (.record d) => [described d]
  | .tagged _ _ (.union alternatives) => alternatives.map described
  | .mapping _ _ entries | .tagged _ _ (.optional _ entries) => ofDescribedEntries entries
  | .tagged .. => []
  | .sequence _ _ items => items.map described
  | .mismatch _ m => [told m]
  | .atom _ a => ofLiteral a
  | d => if d.isCallable then [name d] else [plain d]

def ofOutlinedEntries (entries : List (Value × Value)) : List Wording :=
  entries.flatMap fun e => ofLaidKey e.1 ++ [outlined e.2]

def ofOutlined : Value → List Wording
  | .tagged _ _ (.array d) | .tagged _ _ (.record d) => [outlined d]
  | .tagged _ _ (.union alternatives) => alternatives.map outlined
  | .tagged _ _ (.optional required optional) =>
    ofOutlinedEntries required ++ ofOutlinedEntries optional
  | .mapping _ _ entries => ofOutlinedEntries entries
  | .tagged .. => []
  | .sequence _ _ items => items.map outlined
  | d => if d.isCallable then [name d] else []

def ofShownMismatch : Problem → List Wording
  | .incorrectType expected got | .incorrectValue expected got => [shown expected, shown got]
  | .unionNoMatch errors => errors.map shownMismatch
  | .arrayError error index => [shownMismatch error, digits index]
  | .recordError error key | .objectError error key => [shownMismatch error, shown key]
  | .requiredKeyMissing key | .illegalExtraKey key => [shown key]
  | .checkerFailed _ => []

/-- A schema without parts is told by its tag, where the kind of a value is wrong. -/
def isToldByTag : Value → Bool
  | .tagged _ _ form => form.isSimple
  | _ => false

def ofTold : Problem → List Wording
  | .incorrectType expected got =>
    plain got :: if isToldByTag expected then [] else [described expected]
  | .incorrectValue expected got => [plain got, plain expected]
  | .unionNoMatch errors => errors.map told
  | .arrayError error index => [digits index, told error]
  | .recordError error key | .objectError error key => [plain key, told error]
  | .requiredKeyMissing key | .illegalExtraKey key => [plain key]
  | .checkerFailed _ => []

def ofLaid : Problem → List Wording
  | .incorrectType expected _ => [outlined expected]
  | .unionNoMatch errors => errors.map laid
  | .arrayError error _ => [laid error]
  | .recordError error key | .objectError error key => laid error :: ofLaidKey key
  | .requiredKeyMissing key | .illegalExtraKey key => ofLaidKey key
  | .incorrectValue .. | .checkerFailed _ => []

def ofName (p : Value) : List Wording :=
  match p.attribute? "__name__" with
  | .ok (some (.atom _ a)) => ofAtom a
  | _ => []

/-- What something is put together from, in order. -/
def parts : Wording → List Wording
  | shown v => ofShown v
  | plain v => ofPlain v
  | described d => ofDescribed d
  | outlined d => ofOutlined d
  | shownMismatch m => ofShownMismatch m
  | told m => ofTold m
  | laid m => ofLaid m
  | digits _ | decided _ => []
  | name p => ofName p

/-! ## Faults of lists -/

/-- The first fault in a list of wordings. -/
def firstFault (wordings : List Wording) : Option Fault := wordings.findSome? fault

@[simp]
theorem firstFault_nil : firstFault [] = none := rfl

@[simp]
theorem firstFault_cons (first : Wording) (rest : List Wording) :
    firstFault (first :: rest) = first.fault.or (firstFault rest) := by
  rw [firstFault, List.findSome?_cons]
  cases first.fault <;> rfl

@[simp]
theorem firstFault_append (wordings more : List Wording) :
    firstFault (wordings ++ more) = (firstFault wordings).or (firstFault more) :=
  List.findSome?_append

theorem fault_shownItems (items : List Value) :
    fault? (shownItems items) = firstFault (items.map shown) := by
  induction items with
  | nil => rfl
  | cons v items ih => simp [shownItems, ih, fault]

theorem firstFault_ofEntries_cons (e : Value × Value) (entries : List (Value × Value)) :
    firstFault (ofEntries (e :: entries)) =
      (fault? e.1.shown).or ((fault? e.2.shown).or (firstFault (ofEntries entries))) := by
  simp [ofEntries, fault]

theorem fault_shownEntries (entries : List (Value × Value)) :
    fault? (shownEntries entries) =
      firstFault (ofEntries entries) := by
  induction entries with
  | nil => rfl
  | cons e entries ih => simp [shownEntries, ih, firstFault_ofEntries_cons]

theorem fault_shownPairs (entries : List (Value × Value)) :
    fault? (shownPairs entries) =
      firstFault (ofEntries entries) := by
  induction entries with
  | nil => rfl
  | cons e entries ih => simp [shownPairs, ih, firstFault_ofEntries_cons]

theorem fault_shownFields (fields : List (String × Value)) :
    fault? (shownFields fields) = firstFault (fields.map fun f => shown f.2) := by
  induction fields with
  | nil => rfl
  | cons f fields ih => simp [shownFields, ih, fault]

theorem fault_shownMismatches (errors : List Problem) :
    fault? (shownMismatches errors) = firstFault (errors.map shownMismatch) := by
  induction errors with
  | nil => rfl
  | cons m errors ih => simp [shownMismatches, ih, fault]

theorem fault_describeItems (items : List Value) :
    fault? (describeItems items) = firstFault (items.map described) := by
  induction items with
  | nil => rfl
  | cons d items ih => simp [describeItems, ih, fault]

theorem fault_describeKey (key : Value) :
    fault? (Value.describeKey key key.plain) = firstFault (ofKey key) := by
  unfold Value.describeKey ofKey
  cases key.asText? <;> simp [fault]

theorem fault_describeEntries (marked : List Value) (entries : List (Value × Value)) :
    fault? (describeEntries marked entries) =
      firstFault (ofDescribedEntries entries) := by
  induction entries with
  | nil => rfl
  | cons e entries ih =>
      rw [ofDescribedEntries] at ih ⊢
      simp [describeEntries, ih, fault, fault_describeKey]

theorem fault_outlineItems (items : List Value) :
    fault? (outlineItems items) = firstFault (items.map outlined) := by
  induction items with
  | nil => rfl
  | cons d items ih => simp [outlineItems, ih, fault]

theorem fault_outlineKey (key : Value) : fault? (outlineKey key) = firstFault (ofLaidKey key) := by
  unfold outlineKey ofLaidKey
  split <;> simp [fault]

theorem fault_outlineEntries (entries : List (Value × Value)) :
    fault? (outlineEntries entries) =
      firstFault (ofOutlinedEntries entries) := by
  induction entries with
  | nil => rfl
  | cons e entries ih =>
      rw [ofOutlinedEntries] at ih ⊢
      simp [outlineEntries, ih, fault, fault_outlineKey]

theorem fault_trees (errors : List Problem) :
    fault? (Mismatch.trees errors) = firstFault (errors.map laid) := by
  induction errors with
  | nil => rfl
  | cons m errors ih => simp [Mismatch.trees, ih, fault]

/-! ## Faults of wordings -/

theorem fault_intText_of_short {i : Int} (hi : i.natAbs < 10 ^ Number.maxDigits) :
    fault? (Number.intText i) = none := by
  rw [Number.intText, Nat.pow_eq, if_pos hi]
  rfl

/-- An integer of one digit has not too many. -/
theorem short_of_digit {i : Int} (hi : i.natAbs < 10) : i.natAbs < 10 ^ Number.maxDigits :=
  Nat.lt_of_lt_of_le hi (Nat.le_self_pow (by decide) 10)

theorem fault_intText_one : fault? (Number.intText 1) = none :=
  fault_intText_of_short (short_of_digit (by decide))

theorem fault_ofNumber (n : Number) :
    fault? n.text = firstFault (ofNumber n) ∧ fault? n.shown = firstFault (ofNumber n) := by
  cases n with
  | fraction q =>
      constructor
      · rw [Number.text, Number.fractionText]
        by_cases hden : q.den = 1
        · simp [ofNumber, fault, hden, fault_intText_one]
        · simp [ofNumber, fault, hden]
      · simp [ofNumber, fault, Number.shown]
  | _ => simp [ofNumber, fault, Number.text, Number.shown]

theorem fault_ofAtom (a : Atom) : fault? a.plain = firstFault (ofAtom a) := by
  cases a with
  | number n => exact (fault_ofNumber n).1
  | symbol s => cases s <;> simp [ofAtom, fault, Atom.plain, Symbol.text]
  | _ => simp [ofAtom, Atom.plain]

theorem fault_ofShownAtom (a : Atom) : fault? a.shown = firstFault (ofShownAtom a) := by
  cases a with
  | number n => exact (fault_ofNumber n).2
  | symbol s =>
      cases s <;>
        simp [ofShownAtom, ofAtom, fault, Atom.shown, Symbol.shown, (fault_ofNumber _).2]
  | _ => simp [ofShownAtom, ofAtom, Atom.shown, Atom.plain]

theorem fault_ofDecided (text : Option (Except Fault String)) (otherwise : String) :
    fault? (text.getD (.ok otherwise)) = firstFault (ofDecided text) := by
  cases text <;> simp [ofDecided, fault]

theorem fault_predicateName (p : Value) (word : String) :
    fault? (p.predicateName word) = (name p).ownFault.or (firstFault (ofName p)) := by
  rw [ownFault, predicateName, ofName]
  rcases p.attribute? "__name__" with fault | _ | v
  · rfl
  · rfl
  · cases v with
    | atom mark a => exact fault_ofAtom a
    | _ => rfl

theorem fault_describeCallable (f : Value) : fault? (describeCallable f) = (name f).fault := by
  simp [describeCallable, fault, fault_predicateName]

theorem fault_shownForm (tag : Tag) (form : Form Value) :
    fault? (shownForm tag form) = firstFault (ofShown (.tagged 0 tag form)) := by
  cases form with
  | checker f p => simp [shownForm, ofShown, fault, fault_predicateName]
  | union alternatives => simp [shownForm, ofShown, fault_shownItems]
  | _ => simp [shownForm, ofShown]

theorem fault_shown (v : Value) : fault? v.shown = firstFault (ofShown v) := by
  cases v with
  | atom mark a =>
      rw [Value.shown]
      exact fault_ofShownAtom a
  | sequence mark kind items =>
      rw [ofShown, ← fault_shownItems]
      cases kind with
      | tuple =>
          match items with
          | [v] =>
              rw [Value.shown, shownItems]
              cases v.shown <;> rfl
          | [] | _ :: _ :: _ => simp [Value.shown]
      | _ => simp [Value.shown]
  | mapping mark kind entries =>
      rw [ofShown, ← fault_shownEntries]
      cases kind with
      | ordered =>
          rw [fault_shownEntries, ← fault_shownPairs]
          cases entries <;> simp [Value.shown, shownPairs]
      | _ => simp [Value.shown]
  | bag mark kind items =>
      rw [ofShown, ← fault_shownItems]
      cases kind <;> cases items <;> simp [Value.shown, shownItems]
  | range mark start stop step =>
      rw [Value.shown, rangeText]
      by_cases hstep : step = 1
      · simp [ofShown, fault, hstep, fault_intText_one]
      · simp [ofShown, fault, hstep]
  | record mark fields => simp [Value.shown, ofShown, fault_shownFields]
  | object mark layers slots fields => exact fault_ofDecided _ _
  | function mark label => cases label <;> simp [Value.shown, ofShown]
  | method self label =>
      have howner (self : Value) :
          fault? (if self.tellsOwner label then
              self.shown.map fun owner => "<bound method " ++ label ++ " of " ++ owner ++ ">"
            else .ok ("<method-wrapper '" ++ label ++ "' of " ++ self.typeName ++ " object>")) =
            firstFault (if self.tellsOwner label then [shown self] else []) := by
        split <;> simp [fault]
      cases self with
      | bag | range | buffer | guard => rfl
      | _ => exact howner _
  | applied mark inner | decorated mark inner => simp [Value.shown, ofShown, fault]
  | tagged mark tag form =>
      rw [Value.shown, fault_shownForm]
      cases form <;> rfl
  | mismatch mark m => simp [Value.shown, ofShown, fault]
  | _ => simp [Value.shown, ofShown]

/-- The names that a schema tells have texts of their own. -/
theorem fault_taggedText (tag : Tag) (form : Form Value) :
    fault? (taggedText tag form) = firstFault (ofForm form) := by
  have htag : (Value.ofTag tag).shown = .ok _ := rfl
  have hfamily (f : Family) : (Value.ofFamily f).shown = .ok _ := rfl
  have htuple (items : List Value) : fault? (tuple items).shown = firstFault (items.map shown) :=
    fault_shown _
  have hdict (entries : List (Value × Value)) :
      fault? (dict entries).shown = firstFault (ofEntries entries) :=
    fault_shown _
  cases form <;>
    simp [taggedText, formFields, ofForm, fault_shownFields, fault, htag, hfamily, htuple, hdict]

theorem fault_shownMismatch (m : Problem) :
    fault? (Value.shownMismatch m) = firstFault (ofShownMismatch m) := by
  cases m with
  | unionNoMatch errors => simp [Value.shownMismatch, ofShownMismatch, fault_shownMismatches]
  | checkerFailed reason => cases reason <;> rfl
  | _ => simp [Value.shownMismatch, ofShownMismatch, fault]

theorem plain_eq_ownText {v : Value} (hv : ∀ mark m, v ≠ .mismatch mark m) :
    v.plain = v.ownText := by
  rw [Value.plain]
  exact hv

theorem fault_plain (v : Value) : fault? v.plain = firstFault (ofPlain v) := by
  cases v with
  | atom mark a =>
      rw [plain_eq_ownText (by simp)]
      exact fault_ofAtom a
  | mapping mark kind entries =>
      rw [plain_eq_ownText (by simp)]
      cases kind <;> simp [ownText, ofPlain, fault, Value.shown, Value.dict]
  | object mark layers slots fields =>
      rw [plain_eq_ownText (by simp), ownText, ofPlain]
      cases layers.reverse.findSome? Layer.text <;> simp [fault, Value.shown]
  | tagged mark tag form =>
      rw [plain_eq_ownText (by simp), ownText, fault_taggedText]
      rfl
  | mismatch mark m => simp [Value.plain, ofPlain, fault, Mismatch.text]
  | _ => simp [Value.plain, ownText, ofPlain, fault]

theorem fault_floatText (x : Binary64) : fault? (Json.floatText true x) = none := by
  cases x <;> rfl

theorem fault_ofLiteral (mark : Nat) (a : Atom) :
    fault? (describeLiteral (.atom mark a)) = firstFault (ofLiteral a) := by
  rw [describeLiteral]
  cases a with
  | number n =>
      cases n with
      | fraction q =>
          have htext : fault? (Number.text (.fraction q)) =
              firstFault (ofLiteral (.number (.fraction q))) := (fault_ofNumber (.fraction q)).1
          rw [← htext]
          simp [Json.atomText?, Atom.plain]
      | _ =>
          simp [Json.atomText?, Atom.plain, ofLiteral, ofAtom, ofNumber, fault, Number.text,
            fault_floatText]
  | symbol s =>
      cases s with
      | quantity owner name n =>
          cases n <;>
            simp [Json.atomText?, Atom.plain, ofLiteral, ofAtom, fault, Symbol.text,
              fault_floatText]
      | _ => simp [Json.atomText?, Atom.plain, ofLiteral, ofAtom, fault, Symbol.text]
  | _ => simp [Json.atomText?, Atom.plain, ofLiteral, ofAtom]

theorem fault_describeLiteral {d : Value} (hd : ∀ mark a, d ≠ .atom mark a) :
    fault? (describeLiteral d) = fault? d.ownText := by
  cases d with
  | atom mark a => exact absurd rfl (hd mark a)
  | _ => simp [describeLiteral]

theorem fault_describe (d : Value) : fault? d.describe = firstFault (ofDescribed d) := by
  cases d with
  | tagged mark tag form =>
      cases form with
      | bare =>
          simp [Value.describe, describeForm, ofDescribed, fault_describeLiteral, ownText,
            fault_taggedText, ofForm]
      | union alternatives => simp [Value.describe, describeForm, ofDescribed, fault_describeItems]
      | optional required optional =>
          simp [Value.describe, describeForm, ofDescribed, fault_describeEntries]
      | _ => simp [Value.describe, describeForm, ofDescribed, fault]
  | mapping mark kind entries => simp [Value.describe, ofDescribed, fault_describeEntries]
  | sequence mark kind items => simp [Value.describe, ofDescribed, fault_describeItems]
  | mismatch mark m => simp [Value.describe, ofDescribed, fault, Mismatch.text]
  | atom mark a => exact fault_ofLiteral mark a
  | _ =>
      rw [Value.describe, ofDescribed]
      · split <;> simp [fault_describeCallable, fault_describeLiteral, fault, plain_eq_ownText]
      all_goals simp

theorem fault_outline (d : Value) : fault? d.outline = firstFault (ofOutlined d) := by
  cases d with
  | tagged mark tag form =>
      cases form with
      | union alternatives => simp [Value.outline, outlineForm, ofOutlined, fault_outlineItems]
      | optional required optional =>
          simp [Value.outline, outlineForm, ofOutlined, fault_outlineEntries]
      | _ => simp [Value.outline, outlineForm, ofOutlined, fault]
  | mapping mark kind entries => simp [Value.outline, ofOutlined, fault_outlineEntries]
  | sequence mark kind items => simp [Value.outline, ofOutlined, fault_outlineItems]
  | _ =>
      rw [Value.outline, ofOutlined]
      · split <;> simp [fault_describeCallable]
      all_goals simp

theorem fault_tree (m : Problem) : fault? m.tree = firstFault (ofLaid m) := by
  cases m with
  | unionNoMatch errors => simp [Mismatch.tree, ofLaid, fault_trees]
  | _ => simp [Mismatch.tree, ofLaid, fault, fault_outlineKey]

mutual

/-- The indentation of a text has no part in its faults. -/
theorem fault_mismatchText :
    ∀ (m : Problem) (indent : String), fault? (mismatchText m indent) = firstFault (ofTold m)
  | .incorrectType expected got, indent => by
      cases expected with
      | tagged mark tag form =>
          cases hsimple : form.isSimple <;>
            simp [mismatchText, ofTold, isToldByTag, fault, hsimple]
      | _ => simp [mismatchText, ofTold, isToldByTag, fault]
  | .unionNoMatch errors, indent => by
      simp [mismatchText, ofTold, fault_mismatchTexts errors]
  | .arrayError error index, indent => by
      simp [mismatchText, ofTold, fault, Mismatch.text, fault_mismatchText error]
  | .recordError error key, indent => by
      simp [mismatchText, ofTold, fault, Mismatch.text, fault_mismatchText error]
  | .objectError error key, indent => by
      simp [mismatchText, ofTold, fault, Mismatch.text, fault_mismatchText error]
  | .incorrectValue expected got, indent => by simp [mismatchText, ofTold, fault]
  | .requiredKeyMissing key, indent => by simp [mismatchText, ofTold, fault]
  | .illegalExtraKey key, indent => by simp [mismatchText, ofTold, fault]
  | .checkerFailed reason, indent => by simp [mismatchText, ofTold]

theorem fault_mismatchTexts : ∀ (errors : List Problem) (indent : String),
    fault? (mismatchTexts errors indent) = firstFault (errors.map told)
  | [], indent => rfl
  | m :: errors, indent => by
      simp [mismatchTexts, fault, Mismatch.text, fault_mismatchText m,
        fault_mismatchTexts errors]

end

/-- A wording fails by itself, or with the first part that fails. -/
theorem fault_eq (t : Wording) : t.fault = t.ownFault.or (firstFault t.parts) := by
  cases t with
  | shown v => exact fault_shown v
  | plain v => exact fault_plain v
  | described d => exact fault_describe d
  | outlined d => exact fault_outline d
  | shownMismatch m => exact fault_shownMismatch m
  | told m => exact fault_mismatchText m ""
  | laid m => exact fault_tree m
  | digits i | decided i => exact (Option.or_none).symm
  | name p => exact fault_predicateName p ""

/-! ## Where faults come from -/

/-- A bound on the depth of a wording. -/
noncomputable def weight : Wording → Nat
  | digits _ | decided _ => 0
  | name _ => 1
  | shown v => 3 * sizeOf v + 2
  | plain v => 3 * sizeOf v + 3
  | described d | outlined d => 3 * sizeOf d + 4
  | shownMismatch m | told m | laid m => 3 * sizeOf m + 2

variable {t part : Wording}

theorem weight_ofNumber {n : Number} (h : part ∈ ofNumber n) : part.weight = 0 := by
  unfold ofNumber at h
  split at h <;> simp at h
  · rw [h]; rfl
  · rcases h with rfl | rfl <;> rfl

theorem weight_ofAtom {a : Atom} (h : part ∈ ofAtom a) : part.weight = 0 := by
  unfold ofAtom at h
  split at h
  · exact weight_ofNumber h
  · rw [List.mem_singleton.mp h]; rfl
  · cases h

theorem weight_ofShownAtom {a : Atom} (h : part ∈ ofShownAtom a) : part.weight = 0 := by
  unfold ofShownAtom at h
  split at h
  · exact weight_ofNumber h
  · exact weight_ofAtom h

theorem weight_ofLiteral {a : Atom} (h : part ∈ ofLiteral a) : part.weight = 0 := by
  unfold ofLiteral at h
  split at h
  · rw [List.mem_singleton.mp h]; rfl
  · exact weight_ofAtom h

theorem weight_ofDecided {text : Option (Except Fault String)} (h : part ∈ ofDecided text) :
    part.weight = 0 := by
  obtain ⟨answer, -, rfl⟩ := List.mem_map.mp h
  rfl

/-- What lists hold is less deep than what they are part of. -/
theorem weight_flatMap {ε : Type} [SizeOf ε] {items : List ε} {f : ε → List Wording} {k : Nat}
    (hf : ∀ item, ∀ part ∈ f item, part.weight ≤ 3 * sizeOf item + k)
    (h : part ∈ items.flatMap f) : part.weight + 3 ≤ 3 * sizeOf items + k := by
  obtain ⟨item, hitem, hpart⟩ := List.mem_flatMap.mp h
  have hsize := List.sizeOf_lt_of_mem hitem
  have hweight := hf item part hpart
  omega

theorem weight_map {ε : Type} [SizeOf ε] {items : List ε} {f : ε → Wording} {k : Nat}
    (hf : ∀ item, (f item).weight ≤ 3 * sizeOf item + k) (h : part ∈ items.map f) :
    part.weight + 3 ≤ 3 * sizeOf items + k := by
  rw [List.map_eq_flatMap] at h
  exact weight_flatMap (fun item part hpart => List.mem_singleton.mp hpart ▸ hf item) h

theorem sizeOf_entry (e : Value × Value) : sizeOf e = 1 + sizeOf e.1 + sizeOf e.2 := rfl

theorem sizeOf_field (f : String × Value) : sizeOf f = 1 + sizeOf f.1 + sizeOf f.2 := rfl

theorem weight_shownItems {items : List Value} (h : part ∈ items.map shown) :
    part.weight + 3 ≤ 3 * sizeOf items + 2 :=
  weight_map (fun _ => Nat.le_refl _) h

theorem weight_shownFields {fields : List (String × Value)}
    (h : part ∈ fields.map fun f => shown f.2) : part.weight + 3 ≤ 3 * sizeOf fields + 2 := by
  refine weight_map (fun f => ?_) h
  rw [weight, sizeOf_field]
  omega

theorem weight_ofEntries {entries : List (Value × Value)} (h : part ∈ ofEntries entries) :
    part.weight + 3 ≤ 3 * sizeOf entries + 2 := by
  refine weight_flatMap (fun e part hpart => ?_) h
  rw [sizeOf_entry]
  simp only [List.mem_cons, List.not_mem_nil, or_false] at hpart
  rcases hpart with rfl | rfl <;> rw [weight] <;> omega

theorem weight_ofKey {key : Value} (h : part ∈ ofKey key) : part.weight = 3 * sizeOf key + 3 := by
  unfold ofKey at h
  split at h <;> simp at h
  rw [h, weight]

theorem weight_ofLaidKey {key : Value} (h : part ∈ ofLaidKey key) :
    part.weight = 3 * sizeOf key + 3 := by
  unfold ofLaidKey at h
  split at h <;> simp at h
  rw [h, weight]

/-- The items of a shape are told by wordings of one kind, after their keys. -/
theorem weight_shapeEntries {entries : List (Value × Value)} {ofKey : Value → List Wording}
    {ofItem : Value → Wording} (hkey : ∀ key, ∀ part ∈ ofKey key, part.weight = 3 * sizeOf key + 3)
    (hitem : ∀ d, (ofItem d).weight = 3 * sizeOf d + 4)
    (h : part ∈ entries.flatMap fun e => ofKey e.1 ++ [ofItem e.2]) :
    part.weight + 3 ≤ 3 * sizeOf entries + 4 := by
  refine weight_flatMap (fun e part hpart => ?_) h
  rw [sizeOf_entry]
  rcases List.mem_append.mp hpart with hpart | hpart
  · rw [hkey e.1 part hpart]
    omega
  · rw [List.mem_singleton.mp hpart, hitem]
    omega

theorem weight_ofDescribedEntries {entries : List (Value × Value)}
    (h : part ∈ ofDescribedEntries entries) : part.weight + 3 ≤ 3 * sizeOf entries + 4 :=
  weight_shapeEntries (fun _ _ => weight_ofKey) (fun _ => rfl) h

theorem weight_ofOutlinedEntries {entries : List (Value × Value)}
    (h : part ∈ ofOutlinedEntries entries) : part.weight + 3 ≤ 3 * sizeOf entries + 4 :=
  weight_shapeEntries (fun _ _ => weight_ofLaidKey) (fun _ => rfl) h

theorem weight_ofShown {v : Value} (h : part ∈ ofShown v) :
    part.weight < 3 * sizeOf v + 2 := by
  cases v with
  | atom mark a => exact weight_ofShownAtom h ▸ Nat.succ_pos _
  | object mark layers slots fields => exact weight_ofDecided h ▸ Nat.succ_pos _
  | sequence mark kind items =>
      have hitems := weight_shownItems h
      simp
      omega
  | bag mark kind items =>
      have hitems := weight_shownItems h
      simp
      omega
  | mapping mark kind entries =>
      have hentries := weight_ofEntries h
      simp
      omega
  | range mark start stop step =>
      simp only [ofShown, List.mem_cons, List.not_mem_nil, or_false] at h
      rcases h with rfl | rfl | rfl <;> simp [weight]
  | record mark fields =>
      have hfields := weight_shownFields h
      simp
      omega
  | method self label =>
      have hself : part = shown self := by
        rw [ofShown] at h
        split at h
        · exact List.mem_singleton.mp h
        · cases h
      rw [hself]
      simp [weight]
      omega
  | applied mark inner | decorated mark inner =>
      obtain rfl := List.mem_singleton.mp h
      simp only [weight, applied.sizeOf_spec, decorated.sizeOf_spec]
      omega
  | tagged mark tag form =>
      cases form with
      | checker f p =>
          obtain rfl := List.mem_singleton.mp h
          simp [weight]
      | union alternatives =>
          have hitems := weight_shownItems h
          simp
          omega
      | _ => cases h
  | mismatch mark m =>
      obtain rfl := List.mem_singleton.mp h
      simp only [weight, mismatch.sizeOf_spec]
      omega
  | _ => cases h

theorem weight_ofForm {form : Form Value} (h : part ∈ ofForm form) :
    part.weight < 3 * sizeOf form + 2 := by
  cases form with
  | checker f d | array d | record d =>
      obtain rfl := List.mem_singleton.mp h
      simp only [weight, Form.checker.sizeOf_spec, Form.array.sizeOf_spec, Form.record.sizeOf_spec]
      omega
  | optional required optional =>
      rcases List.mem_append.mp h with h | h
      · have hentries := weight_ofEntries h
        simp
        omega
      · have hentries := weight_ofEntries h
        simp
        omega
  | union alternatives =>
      have hitems := weight_shownItems h
      simp
      omega
  | _ => cases h

theorem weight_ofPlain {v : Value} (h : part ∈ ofPlain v) : part.weight < 3 * sizeOf v + 3 := by
  cases v with
  | atom mark a => exact weight_ofAtom h ▸ Nat.succ_pos _
  | object mark layers slots fields =>
      simp only [ofPlain] at h
      split at h <;> obtain rfl := List.mem_singleton.mp h
      · exact Nat.succ_pos _
      · exact Nat.lt_succ_self _
  | mismatch mark m =>
      obtain rfl := List.mem_singleton.mp h
      simp only [weight, mismatch.sizeOf_spec]
      omega
  | tagged mark tag form =>
      have hform := weight_ofForm h
      simp
      omega
  | _ =>
      obtain rfl := List.mem_singleton.mp h
      exact Nat.lt_succ_self _

theorem weight_ofDescribed {d : Value} (h : part ∈ ofDescribed d) :
    part.weight < 3 * sizeOf d + 4 := by
  cases d with
  | tagged mark tag form =>
      cases form with
      | array d | record d =>
          obtain rfl := List.mem_singleton.mp h
          simp [weight]
          omega
      | union alternatives =>
          have hitems := weight_map (fun _ => Nat.le_refl _) h
          simp
          omega
      | optional required optional =>
          have hentries := weight_ofDescribedEntries h
          simp
          omega
      | _ => cases h
  | mapping mark kind entries =>
      have hentries := weight_ofDescribedEntries h
      simp
      omega
  | sequence mark kind items =>
      have hitems := weight_map (fun _ => Nat.le_refl _) h
      simp
      omega
  | mismatch mark m =>
      obtain rfl := List.mem_singleton.mp h
      simp only [weight, mismatch.sizeOf_spec]
      omega
  | atom mark a => exact weight_ofLiteral h ▸ Nat.succ_pos _
  | _ =>
      rw [ofDescribed] at h
      · split at h <;> obtain rfl := List.mem_singleton.mp h
        · rw [weight]
          omega
        · exact Nat.lt_succ_self _
      all_goals simp

theorem weight_ofOutlined {d : Value} (h : part ∈ ofOutlined d) :
    part.weight < 3 * sizeOf d + 4 := by
  cases d with
  | tagged mark tag form =>
      cases form with
      | array d | record d =>
          obtain rfl := List.mem_singleton.mp h
          simp [weight]
          omega
      | union alternatives =>
          have hitems := weight_map (fun _ => Nat.le_refl _) h
          simp
          omega
      | optional required optional =>
          rcases List.mem_append.mp h with h | h
          · have hentries := weight_ofOutlinedEntries h
            simp
            omega
          · have hentries := weight_ofOutlinedEntries h
            simp
            omega
      | _ => cases h
  | mapping mark kind entries =>
      have hentries := weight_ofOutlinedEntries h
      simp
      omega
  | sequence mark kind items =>
      have hitems := weight_map (fun _ => Nat.le_refl _) h
      simp
      omega
  | _ =>
      rw [ofOutlined] at h
      · split at h
        · obtain rfl := List.mem_singleton.mp h
          rw [weight]
          omega
        · cases h
      all_goals simp

theorem weight_ofShownMismatch {m : Problem} (h : part ∈ ofShownMismatch m) :
    part.weight < 3 * sizeOf m + 2 := by
  cases m with
  | unionNoMatch errors =>
      have herrors := weight_map (fun _ => Nat.le_refl _) h
      simp
      omega
  | requiredKeyMissing key | illegalExtraKey key =>
      obtain rfl := List.mem_singleton.mp h
      simp [weight]
  | checkerFailed reason => cases h
  | _ =>
      simp only [ofShownMismatch, List.mem_cons, List.not_mem_nil, or_false] at h
      rcases h with rfl | rfl
      all_goals
        simp only [weight, Mismatch.incorrectType.sizeOf_spec, Mismatch.incorrectValue.sizeOf_spec,
          Mismatch.arrayError.sizeOf_spec, Mismatch.recordError.sizeOf_spec,
          Mismatch.objectError.sizeOf_spec]
        omega

theorem weight_ofTold {m : Problem} (h : part ∈ ofTold m) : part.weight < 3 * sizeOf m + 2 := by
  cases m with
  | incorrectType expected got =>
      rcases List.mem_cons.mp h with rfl | h
      · simp [weight]
        omega
      · split at h
        · cases h
        · obtain rfl := List.mem_singleton.mp h
          simp [weight]
          omega
  | unionNoMatch errors =>
      have herrors := weight_map (fun _ => Nat.le_refl _) h
      simp
      omega
  | requiredKeyMissing key | illegalExtraKey key =>
      obtain rfl := List.mem_singleton.mp h
      simp [weight]
      omega
  | checkerFailed reason => cases h
  | _ =>
      simp only [ofTold, List.mem_cons, List.not_mem_nil, or_false] at h
      rcases h with rfl | rfl <;> simp [weight] <;> omega

theorem weight_ofLaid {m : Problem} (h : part ∈ ofLaid m) : part.weight < 3 * sizeOf m + 2 := by
  cases m with
  | incorrectType expected got =>
      obtain rfl := List.mem_singleton.mp h
      simp [weight]
      omega
  | unionNoMatch errors =>
      have herrors := weight_map (fun _ => Nat.le_refl _) h
      simp
      omega
  | arrayError error index =>
      obtain rfl := List.mem_singleton.mp h
      simp [weight]
      omega
  | recordError error key | objectError error key =>
      rcases List.mem_cons.mp h with rfl | h
      · simp [weight]
        omega
      · rw [weight_ofLaidKey h]
        simp
        omega
  | requiredKeyMissing key | illegalExtraKey key =>
      rw [weight_ofLaidKey h]
      simp
      omega
  | _ => cases h

/-- Parts are less deep than what they are parts of. -/
theorem weight_lt (h : part ∈ t.parts) : part.weight < t.weight := by
  cases t with
  | shown v => exact weight_ofShown h
  | plain v => exact weight_ofPlain h
  | described d => exact weight_ofDescribed h
  | outlined d => exact weight_ofOutlined h
  | shownMismatch m => exact weight_ofShownMismatch h
  | told m => exact weight_ofTold h
  | laid m => exact weight_ofLaid h
  | digits i | decided i => cases h
  | name p =>
      rw [parts, ofName] at h
      split at h
      · rw [weight_ofAtom h]
        exact Nat.succ_pos 0
      · cases h

/-- What a wording comes to, part by part. -/
def ComesTo : Wording → Wording → Prop := Relation.ReflTransGen fun t part => part ∈ t.parts

/-- What has no text of its own, and why: an integer with too many digits, the name of a
predicate that cannot be looked up, or an instance whose class fails to give it a text. -/
inductive Wordless : Wording → Fault → Prop
  | digits {i : Int} (hlong : 10 ^ Number.maxDigits ≤ i.natAbs) : Wordless (digits i) .digitLimit
  | name {p : Value} {reason : Fault} (hname : p.attribute? "__name__" = .error reason) :
      Wordless (name p) reason
  | decided {reason : Fault} : Wordless (decided (.error reason)) reason

/-- A wording comes to something that has no text of its own. -/
def Unspoken (t : Wording) (reason : Fault) : Prop := ∃ part, t.ComesTo part ∧ Wordless part reason

variable {reason : Fault}

theorem ownFault_eq_some_iff : t.ownFault = some reason ↔ Wordless t reason := by
  constructor
  · intro h
    cases t with
    | digits i =>
        rw [ownFault, fault_some_iff, Number.intText_eq_error_iff] at h
        obtain ⟨hlong, rfl⟩ := h
        exact .digits hlong
    | name p =>
        rw [ownFault, fault_some_iff] at h
        exact .name h
    | decided text =>
        obtain rfl := fault_some_iff.mp h
        exact .decided
    | _ => cases h
  · rintro (hlong | hname | _)
    · rw [ownFault, fault_some_iff, Number.intText_eq_error_iff]
      exact ⟨hlong, rfl⟩
    · rw [ownFault, fault_some_iff]
      exact hname
    · rfl

theorem own_or_part_of_fault (h : t.fault = some reason) :
    Wordless t reason ∨ ∃ part ∈ t.parts, part.fault = some reason := by
  rw [fault_eq, Option.or_eq_some_iff, ownFault_eq_some_iff] at h
  exact h.imp_right fun hparts => List.exists_of_findSome?_eq_some hparts.2

/-- A wording that fails comes to something that has no text, for the same reason. -/
theorem unspoken_of_fault (h : t.fault = some reason) : t.Unspoken reason := by
  induction hweight : t.weight using Nat.strongRecOn generalizing t with
  | _ n ih =>
      rcases own_or_part_of_fault h with hown | ⟨part, hpart, hfault⟩
      · exact ⟨t, .refl, hown⟩
      · obtain ⟨own, hcomes, hown⟩ := ih part.weight (hweight ▸ weight_lt hpart) hfault rfl
        exact ⟨own, .head hpart hcomes, hown⟩

/-- A wording that has a text comes only to wordings that have texts. -/
theorem ComesTo.fault_eq_none (h : t.ComesTo part) (ht : t.fault = none) : part.fault = none := by
  induction h with
  | refl => exact ht
  | tail _ hlast ih =>
      rw [fault_eq, Option.or_eq_none_iff] at ih
      exact List.findSome?_eq_none_iff.mp ih.2 _ hlast

/-- A wording fails exactly if it comes to something that has no text of its own. -/
theorem fault_eq_none_iff : t.fault = none ↔ ∀ reason, ¬ t.Unspoken reason := by
  constructor
  · rintro ht reason ⟨part, hcomes, hown⟩
    have hpart := hcomes.fault_eq_none ht
    rw [fault_eq, ownFault_eq_some_iff.mpr hown] at hpart
    cases hpart
  · intro h
    cases hfault : t.fault with
    | none => rfl
    | some reason => exact absurd (unspoken_of_fault hfault) (h reason)

end Wording

end ShapeCheck
