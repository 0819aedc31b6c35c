import ShapeCheck.Proofs.Merging
import ShapeCheck.Proofs.TextKeys
import ShapeCheck.Schema.Outline

/-!
# Reading an outline back

The outline of a schema puts everything that is not a bare tag under `v`: a shape, a
sequence, a literal, and the schemas with parts.  A schema with parts is told by the label
under `tag`, which is a text where a shape has the outline of an item.  So an outline can be
read back, also that of a shape that has the keys of a schema with parts.

Main statement: the tree of a schema without predicates determines the schema, up to the
kinds of its sequences and mappings (`tree_determines_schema`).
-/

namespace ShapeCheck.Value

/-! ## Schemas and trees up to identity -/

mutual

/-- A schema, or a tree, of which nothing is kept but the content: identity does not matter,
a sequence is as good as a list, and a mapping is as good as one of the plain kind. -/
def stripped : Value → Value
  | atom _ a => atom 0 a
  | sequence _ _ items => list (strippedItems items)
  | mapping _ _ entries => dict (strippedEntries entries)
  | tagged _ tag form => tagged 0 tag (strippedForm form)
  | v => v
termination_by structural v => v

def strippedItems : List Value → List Value
  | [] => []
  | v :: rest => v.stripped :: strippedItems rest
termination_by structural items => items

def strippedEntries : List (Value × Value) → List (Value × Value)
  | [] => []
  | (k, v) :: rest => (k.stripped, v.stripped) :: strippedEntries rest
termination_by structural entries => entries

def strippedForm : Form Value → Form Value
  | .array element => .array element.stripped
  | .record value => .record value.stripped
  | .optional required optional => .optional (strippedEntries required) (strippedEntries optional)
  | .union alternatives => .union (strippedItems alternatives)
  | form => form
termination_by structural form => form

end

/-- The tree that a schema is laid out as. -/
def tree (d : Value) : Except Fault Value := d.outline.map stripped

/-! ## Reading -/

/-- The schema without parts that goes by a label. -/
def ofLabel? (label : Value) : Option Value :=
  match label.asText?.bind Tag.ofLabel? with
  | some .void => some Schema.void
  | some .any => some Schema.anything
  | some .nullish => some Schema.nullish
  | some .boolean => some Schema.boolean
  | some tag => (Family.all.find? fun f => f.tag = tag).map Schema.ofFamily
  | none => none

/-- The tag that a structure is labelled with, if it is that of a schema with parts. -/
def labelled? : List (Value × Value) → Option Tag
  | (_, label) :: _ => label.asText?.bind Tag.ofLabel?
  | [] => none

/-- The key that is laid out as a given one. -/
def ofOutlineKey (key : Value) : Value :=
  if key.asText? = some Symbol.wildcardText then wildcard else key

mutual

/-- Reads the schema back that is laid out as a tree. -/
def ofTree? : Value → Option Value
  | mapping _ _ [(key, content)] =>
    if key.asText? = some "t" then ofLabel? content else content.ofStructure?
  | _ => none
termination_by structural v => v

def ofStructure? : Value → Option Value
  | atom _ a => some (atom 0 a)
  | sequence _ _ items => (ofItems? items).map list
  | mapping _ _ entries =>
    match labelled? entries with
    | some tag => ofParts? tag entries
    | none => (ofEntries? entries).map dict
  | _ => none
termination_by structural v => v

def ofParts? (tag : Tag) : List (Value × Value) → Option Value
  | [_, (_, part)] =>
    match tag with
    | .array => part.ofTree?.map Schema.arrayOf
    | .record => part.ofTree?.map Schema.recordOf
    | .union => part.ofSequence?.map Schema.unionOf
    | _ => none
  | [_, (_, required), (_, optional)] => do
    return tagged 0 .objectOptional (.optional (← required.ofMapping?) (← optional.ofMapping?))
  | _ => none
termination_by structural entries => entries

def ofSequence? : Value → Option (List Value)
  | sequence _ _ items => ofItems? items
  | _ => none
termination_by structural v => v

def ofMapping? : Value → Option (List (Value × Value))
  | mapping _ _ entries => ofEntries? entries
  | _ => none
termination_by structural v => v

def ofItems? : List Value → Option (List Value)
  | [] => some []
  | v :: rest => do return (← v.ofTree?) :: (← ofItems? rest)
termination_by structural items => items

def ofEntries? : List (Value × Value) → Option (List (Value × Value))
  | [] => some []
  | (k, v) :: rest => do return (ofOutlineKey k, ← v.ofTree?) :: (← ofEntries? rest)
termination_by structural entries => entries

end

/-! ## Schemas without predicates -/

/-- The keys that an outline tells apart: the wildcard, and texts other than its spelling. -/
inductive PlainKey : Value → Prop
  | wildcard (mark : Nat) : PlainKey (atom mark (.symbol .wildcard))
  | name (mark : Nat) {s : String} (hs : s ≠ Symbol.wildcardText) :
      PlainKey (atom mark (.text s false))

/-- Schemas that are made of tags, shapes and literals, to any depth. -/
inductive Transparent : Value → Prop
  | literal (mark : Nat) (a : Atom) : Transparent (atom mark a)
  | atomic (mark : Nat) {tag : Tag} (htag : tag ∈ [.void, .any, .nullish, .boolean]) :
      Transparent (tagged mark tag .atomic)
  | family (mark : Nat) (f : Family) : Transparent (tagged mark f.tag (.family f))
  | array (mark : Nat) {element : Value} (h : Transparent element) :
      Transparent (tagged mark .array (.array element))
  | record (mark : Nat) {value : Value} (h : Transparent value) :
      Transparent (tagged mark .record (.record value))
  | optional (mark : Nat) {own others : List (Value × Value)}
      (hown : (dict own).WellKeyed PlainKey) (hothers : (dict others).WellKeyed PlainKey)
      (h : ∀ e ∈ own, Transparent e.2) (h' : ∀ e ∈ others, Transparent e.2) :
      Transparent (tagged mark .objectOptional (.optional own others))
  | union (mark : Nat) {alternatives : List Value} (h : ∀ d ∈ alternatives, Transparent d) :
      Transparent (tagged mark .union (.union alternatives))
  | mapping (mark : Nat) (kind : MappingKind) {entries : List (Value × Value)}
      (hkeys : (dict entries).WellKeyed PlainKey) (h : ∀ e ∈ entries, Transparent e.2) :
      Transparent (mapping mark kind entries)
  | sequence (mark : Nat) (kind : SequenceKind) {items : List Value}
      (h : ∀ d ∈ items, Transparent d) : Transparent (sequence mark kind items)

variable {d d' t key key' content : Value} {entries others laid laid' : List (Value × Value)}
  {items laidItems : List Value}

/-- What the combinator for optional keys makes of such schemas. -/
theorem Transparent.optionalOf {required optional : List (Value × Value)}
    (hrequired : (dict required).WellKeyed PlainKey)
    (hoptional : (dict optional).WellKeyed PlainKey) (h : ∀ e ∈ required, Transparent e.2)
    (h' : ∀ e ∈ optional, Transparent e.2) : Transparent (Schema.optionalOf required optional) := by
  have hown : (dict (collectEntries required)).WellKeyed PlainKey :=
    collectEntries_wellKeyed hrequired.1
  have hitems : ∀ e ∈ collectEntries required, Transparent e.2 :=
    forall_item_mergeEntries Transparent (by simp) h
  exact .optional 0 hown (mergeEntries_wellKeyed hown hoptional.1) hitems
    (forall_item_mergeEntries Transparent hitems h')

/-! ## Keys -/

/-- Fields whose names are told apart are entries under plain keys. -/
theorem fieldEntries_wellKeyed {fields : List (String × Value)}
    (hnames : ∀ f ∈ fields, f.1 ≠ Symbol.wildcardText) (hapart : (fields.map Prod.fst).Nodup) :
    (dict (fieldEntries fields)).WellKeyed PlainKey := by
  constructor
  · intro e he
    obtain ⟨f, hf, rfl⟩ := List.mem_map.mp he
    exact ⟨.name 0 (hnames f hf), rfl⟩
  · rw [fieldEntries, List.pairwise_map]
    refine (List.pairwise_map.mp hapart).imp ?_
    intro f g hne
    have hname : (text g.1).asText? = some g.1 := rfl
    rw [Bool.eq_false_iff, Ne, sameKey_iff_asText hname]
    exact fun heq => hne (Option.some.inj heq)

/-- The text of a key in an outline. -/
def spelling (key : Value) : String := key.asText?.getD Symbol.wildcardText

/-- Plain keys that are spelled alike are the same. -/
theorem PlainKey.sameKey (h : PlainKey key) (h' : PlainKey key')
    (heq : key.spelling = key'.spelling) : sameKey key key' = true := by
  cases h with
  | wildcard m =>
      cases h' with
      | wildcard => simp [Value.sameKey, identical, Atom.isShared]
      | name n hs => exact absurd heq.symm hs
  | name m hs =>
      cases h' with
      | wildcard => exact absurd heq hs
      | name n =>
          obtain rfl := heq
          exact (sameKey_iff_asText rfl).mpr rfl

/-- The key under which a plain key is laid out, and how it is read back. -/
structure LaidKey (key laid : Value) : Prop where
  outline : outlineKey key = .ok laid
  outline_stripped : outlineKey key.stripped = .ok laid.stripped
  asText : laid.asText? = some key.spelling
  read : ofOutlineKey laid.stripped = key.stripped

theorem PlainKey.exists_laidKey (h : PlainKey key) : ∃ laid, LaidKey key laid := by
  cases h with
  | wildcard m => exact ⟨text Symbol.wildcardText, rfl, rfl, rfl, rfl⟩
  | @name m s hs =>
      refine ⟨atom m (.text s false), rfl, rfl, rfl, ?_⟩
      have hne : ¬ (atom 0 (.text s false)).asText? = some Symbol.wildcardText :=
        fun heq => hs (Option.some.inj heq)
      exact if_neg hne

theorem asText_stripped (v : Value) : v.stripped.asText? = v.asText? := by
  cases v <;> rfl

theorem strippedEntries_eq_map (entries : List (Value × Value)) :
    strippedEntries entries = entries.map fun e => (e.1.stripped, e.2.stripped) := by
  induction entries with
  | nil => rfl
  | cons head tail ih => rw [strippedEntries, List.map_cons, ih]

/-- Entries that are laid out under the texts of plain keys make a mapping as they are. -/
theorem collectEntries_of_laid (hkeys : (dict entries).WellKeyed PlainKey)
    (hlaid : laid.map (fun e => e.1.asText?) = entries.map fun e => some e.1.spelling) :
    collectEntries laid = laid := by
  obtain ⟨hplain, hapart⟩ := hkeys
  have hspelling : entries.Pairwise fun e e' => some e.1.spelling ≠ some e'.1.spelling := by
    refine hapart.imp_of_mem ?_
    intro e e' he he' hne heq
    rw [(hplain e he).1.sameKey (hplain e' he').1 (Option.some.inj heq)] at hne
    cases hne
  rw [← List.pairwise_map, ← hlaid, List.pairwise_map] at hspelling
  have hlaidApart : laid.Pairwise fun e e' => sameKey e.1 e'.1 = false := by
    refine hspelling.imp_of_mem ?_
    intro e e' _ he' hne
    have hmem : e'.1.asText? ∈ entries.map fun e => some e.1.spelling :=
      hlaid ▸ List.mem_map_of_mem he'
    obtain ⟨o, -, hname⟩ := List.mem_map.mp hmem
    rw [Bool.eq_false_iff, Ne, sameKey_iff_asText hname.symm]
    exact fun heq => hne (heq.trans hname)
  exact mergeEntries_of_apart (by simp) hlaidApart

/-! ## Outlines that are read back -/

/-- The outline of a schema, and that its tree is read back as the schema. -/
structure LaidOut (d t : Value) : Prop where
  outline : d.outline = .ok t
  outline_stripped : d.stripped.outline = .ok t.stripped
  /-- An outline is no label. -/
  no_label : t.stripped.asText? = none
  read : t.stripped.ofTree? = some d.stripped

theorem LaidOut.of_structure (h : d.outline = .ok (structureOutline content))
    (hstripped : d.stripped.outline = .ok (structureOutline content.stripped))
    (hread : content.stripped.ofStructure? = some d.stripped) :
    LaidOut d (structureOutline content) :=
  ⟨h, hstripped, rfl, hread⟩

structure LaidItems (items laid : List Value) : Prop where
  outline : outlineItems items = .ok laid
  outline_stripped : outlineItems (strippedItems items) = .ok (strippedItems laid)
  read : ofItems? (strippedItems laid) = some (strippedItems items)

theorem exists_laidItems (h : ∀ d ∈ items, ∃ t, LaidOut d t) : ∃ laid, LaidItems items laid := by
  induction items with
  | nil => exact ⟨[], rfl, rfl, rfl⟩
  | cons head tail ih =>
      rw [List.forall_mem_cons] at h
      obtain ⟨t, hhead⟩ := h.1
      obtain ⟨laid, htail⟩ := ih h.2
      refine ⟨t :: laid, ?_, ?_, ?_⟩
      · rw [outlineItems, hhead.outline, htail.outline]
        rfl
      · rw [strippedItems, outlineItems, hhead.outline_stripped, htail.outline_stripped]
        rfl
      · rw [strippedItems, ofItems?, hhead.read, htail.read]
        rfl

structure LaidEntries (entries laid : List (Value × Value)) : Prop where
  outline : outlineEntries entries = .ok laid
  outline_stripped : outlineEntries (strippedEntries entries) = .ok (strippedEntries laid)
  names : laid.map (fun e => e.1.asText?) = entries.map fun e => some e.1.spelling
  /-- Items are laid out, so that none of them can pass for a label. -/
  no_label : labelled? (strippedEntries laid) = none
  read : ofEntries? (strippedEntries laid) = some (strippedEntries entries)

theorem exists_laidEntries (hkeys : ∀ e ∈ entries, PlainKey e.1)
    (h : ∀ e ∈ entries, ∃ t, LaidOut e.2 t) : ∃ laid, LaidEntries entries laid := by
  induction entries with
  | nil => exact ⟨[], rfl, rfl, rfl, rfl, rfl⟩
  | cons head tail ih =>
      obtain ⟨key, item⟩ := head
      rw [List.forall_mem_cons] at hkeys h
      obtain ⟨laidKey, hkey⟩ := hkeys.1.exists_laidKey
      obtain ⟨t, hitem⟩ := h.1
      obtain ⟨laid, htail⟩ := ih hkeys.2 h.2
      refine ⟨(laidKey, t) :: laid, ?_, ?_, ?_, ?_, ?_⟩
      · rw [outlineEntries, hkey.outline, hitem.outline, htail.outline]
        rfl
      · rw [strippedEntries, outlineEntries, hkey.outline_stripped, hitem.outline_stripped,
          htail.outline_stripped]
        rfl
      · rw [List.map_cons, List.map_cons, htail.names, hkey.asText]
      · rw [strippedEntries, labelled?, hitem.no_label]
        rfl
      · rw [strippedEntries, ofEntries?, hkey.read, hitem.read, htail.read]
        rfl

/-- Laid entries make a mapping as they are, and so they do without their identity. -/
theorem LaidEntries.collect (h : LaidEntries entries laid)
    (hkeys : (dict entries).WellKeyed PlainKey) :
    collectEntries laid = laid ∧ collectEntries (strippedEntries laid) = strippedEntries laid := by
  refine ⟨collectEntries_of_laid hkeys h.names, collectEntries_of_laid hkeys ?_⟩
  rw [strippedEntries_eq_map, List.map_map, ← h.names]
  exact List.map_congr_left fun e _ => asText_stripped e.1

/-! ## One step of an outline -/

theorem LaidOut.array (mark : Nat) (h : LaidOut d t) :
    LaidOut (tagged mark .array (.array d)) (partsOutline .array [("element", t)]) := by
  refine .of_structure ?_ ?_ ?_
  · rw [Value.outline, outlineForm, h.outline]
    rfl
  · rw [stripped, Value.outline, strippedForm, outlineForm, h.outline_stripped]
    rfl
  · exact congrArg (Option.map Schema.arrayOf) h.read

theorem LaidOut.record (mark : Nat) (h : LaidOut d t) :
    LaidOut (tagged mark .record (.record d)) (partsOutline .record [("value_type", t)]) := by
  refine .of_structure ?_ ?_ ?_
  · rw [Value.outline, outlineForm, h.outline]
    rfl
  · rw [stripped, Value.outline, strippedForm, outlineForm, h.outline_stripped]
    rfl
  · exact congrArg (Option.map Schema.recordOf) h.read

theorem LaidItems.union (mark : Nat) (h : LaidItems items laidItems) :
    LaidOut (tagged mark .union (.union items))
      (partsOutline .union [("alternatives", list laidItems)]) := by
  refine .of_structure ?_ ?_ ?_
  · rw [Value.outline, outlineForm, h.outline]
    rfl
  · rw [stripped, Value.outline, strippedForm, outlineForm, h.outline_stripped]
    rfl
  · exact congrArg (Option.map Schema.unionOf) h.read

theorem LaidItems.sequence (mark : Nat) (kind : SequenceKind) (h : LaidItems items laidItems) :
    LaidOut (sequence mark kind items) (structureOutline (list laidItems)) := by
  refine .of_structure ?_ ?_ ?_
  · rw [Value.outline, h.outline]
    rfl
  · rw [stripped, list, Value.outline, h.outline_stripped]
    rfl
  · exact congrArg (Option.map list) h.read

theorem LaidEntries.mapping (mark : Nat) (kind : MappingKind) (h : LaidEntries entries laid)
    (hkeys : (dict entries).WellKeyed PlainKey) :
    LaidOut (mapping mark kind entries) (structureOutline (dict laid)) := by
  obtain ⟨hcollect, hcollect_stripped⟩ := h.collect hkeys
  refine .of_structure ?_ ?_ ?_
  · rw [Value.outline, h.outline]
    exact congrArg (fun a => Except.ok (structureOutline (dict a))) hcollect
  · rw [stripped, dict, Value.outline, h.outline_stripped]
    exact congrArg (fun a => Except.ok (structureOutline (dict a))) hcollect_stripped
  · rw [dict, stripped, dict, ofStructure?, h.no_label, h.read]
    rfl

theorem LaidEntries.optional (mark : Nat) (h : LaidEntries entries laid)
    (h' : LaidEntries others laid') (hentries : (dict entries).WellKeyed PlainKey)
    (hothers : (dict others).WellKeyed PlainKey) :
    LaidOut (tagged mark .objectOptional (.optional entries others))
      (partsOutline .objectOptional [("required", dict laid), ("optional", dict laid')]) := by
  obtain ⟨hcollect, hcollect_stripped⟩ := h.collect hentries
  obtain ⟨hcollect', hcollect_stripped'⟩ := h'.collect hothers
  refine .of_structure ?_ ?_ ?_
  · rw [Value.outline, outlineForm, h.outline, h'.outline]
    exact congrArg₂ (fun a b => Except.ok (partsOutline .objectOptional
      [("required", dict a), ("optional", dict b)])) hcollect hcollect'
  · rw [stripped, Value.outline, strippedForm, outlineForm, h.outline_stripped,
      h'.outline_stripped]
    exact congrArg₂ (fun a b => Except.ok (partsOutline .objectOptional
      [("required", dict a), ("optional", dict b)])) hcollect_stripped hcollect_stripped'
  · have hread : ofParts? .objectOptional
        [(text "tag", text Tag.objectOptional.label),
          (text "required", dict (strippedEntries laid)),
          (text "optional", dict (strippedEntries laid'))] =
        some (tagged 0 .objectOptional
          (.optional (strippedEntries entries) (strippedEntries others))) := by
      rw [ofParts?, dict, dict, ofMapping?, ofMapping?, h.read, h'.read]
      rfl
    exact hread

/-- Every schema without predicates has an outline that is read back. -/
theorem Transparent.exists_laidOut (hd : Transparent d) : ∃ t, LaidOut d t := by
  induction hd with
  | literal mark a => exact ⟨_, .of_structure rfl rfl rfl⟩
  | atomic mark htag =>
      simp only [List.mem_cons, List.not_mem_nil, or_false] at htag
      rcases htag with rfl | rfl | rfl | rfl <;> exact ⟨_, rfl, rfl, rfl, rfl⟩
  | family mark f => cases f <;> exact ⟨_, rfl, rfl, rfl, rfl⟩
  | array mark _ ih =>
      obtain ⟨t, h⟩ := ih
      exact ⟨_, h.array mark⟩
  | record mark _ ih =>
      obtain ⟨t, h⟩ := ih
      exact ⟨_, h.record mark⟩
  | union mark _ ih =>
      obtain ⟨laid, h⟩ := exists_laidItems ih
      exact ⟨_, h.union mark⟩
  | optional mark hown hothers _ _ ih ih' =>
      obtain ⟨laid, h⟩ := exists_laidEntries (fun e he => (hown.1 e he).1) ih
      obtain ⟨laid', h'⟩ := exists_laidEntries (fun e he => (hothers.1 e he).1) ih'
      exact ⟨_, h.optional mark h' hown hothers⟩
  | mapping mark kind hkeys _ ih =>
      obtain ⟨laid, h⟩ := exists_laidEntries (fun e he => (hkeys.1 e he).1) ih
      exact ⟨_, h.mapping mark kind hkeys⟩
  | sequence mark kind _ ih =>
      obtain ⟨laid, h⟩ := exists_laidItems ih
      exact ⟨_, h.sequence mark kind⟩

theorem LaidOut.tree_eq (h : LaidOut d t) : d.tree = .ok t.stripped := by
  rw [tree, h.outline]
  rfl

/-- The tree of a schema without predicates is read back as the schema.  Hence two schemas
have one tree exactly if they are the same, up to the kinds of their containers. -/
theorem tree_determines_schema (hd : Transparent d) (hd' : Transparent d') :
    (∃ t, d.tree = .ok t ∧ t.ofTree? = some d.stripped) ∧
      (d.tree = d'.tree ↔ d.stripped = d'.stripped) := by
  obtain ⟨t, h⟩ := hd.exists_laidOut
  obtain ⟨t', h'⟩ := hd'.exists_laidOut
  refine ⟨⟨t.stripped, h.tree_eq, h.read⟩, ?_⟩
  rw [h.tree_eq, h'.tree_eq]
  constructor
  · intro heq
    have hread := h.read
    rw [Except.ok.inj heq, h'.read] at hread
    exact (Option.some.inj hread).symm
  · intro heq
    have houtline := h.outline_stripped
    rw [heq, h'.outline_stripped] at houtline
    exact houtline.symm

/-- An object with a required number and an optional text. -/
def objectSchema : Value :=
  Schema.optionalOf (fieldEntries [("a", Schema.ofFamily .number)])
    (fieldEntries [("b", Schema.ofFamily .string)])

/-- A shape with the keys that the outline of that schema has. -/
def imitatingShape : Value :=
  dict (fieldEntries
    [("tag", text "ObjectOptional"),
      ("required", dict (fieldEntries [("a", Schema.ofFamily .number)])),
      ("optional", dict (fieldEntries [("a", Schema.ofFamily .number),
        ("b", Schema.ofFamily .string)]))])

theorem transparent_fields {fields : List (String × Value)} (h : ∀ f ∈ fields, Transparent f.2) :
    ∀ e ∈ fieldEntries fields, Transparent e.2 := by
  intro e he
  obtain ⟨f, hf, rfl⟩ := List.mem_map.mp he
  exact h f hf

theorem transparent_dict {fields : List (String × Value)}
    (hnames : ∀ f ∈ fields, f.1 ≠ Symbol.wildcardText) (hapart : (fields.map Prod.fst).Nodup)
    (h : ∀ f ∈ fields, Transparent f.2) : Transparent (dict (fieldEntries fields)) :=
  .mapping 0 .dict (fieldEntries_wellKeyed hnames hapart) (transparent_fields h)

theorem objectSchema_transparent : Transparent objectSchema := by
  apply Transparent.optionalOf
  · exact fieldEntries_wellKeyed (by decide) (by decide)
  · exact fieldEntries_wellKeyed (by decide) (by decide)
  · exact transparent_fields (List.forall_mem_singleton.mpr (.family 0 .number))
  · exact transparent_fields (List.forall_mem_singleton.mpr (.family 0 .string))

theorem imitatingShape_transparent : Transparent imitatingShape := by
  have hnumber : Transparent (Schema.ofFamily .number) := .family 0 .number
  have hstring : Transparent (Schema.ofFamily .string) := .family 0 .string
  have hrequired : Transparent (dict (fieldEntries [("a", Schema.ofFamily .number)])) :=
    transparent_dict (by decide) (by decide) (List.forall_mem_singleton.mpr hnumber)
  have hoptional : Transparent (dict (fieldEntries [("a", Schema.ofFamily .number),
      ("b", Schema.ofFamily .string)])) :=
    transparent_dict (by decide) (by decide) (by simp [hnumber, hstring])
  refine transparent_dict (by decide) (by decide) ?_
  simp only [List.forall_mem_cons]
  exact ⟨.literal 0 _, hrequired, hoptional, by simp⟩

/-- A shape may have the keys of an outline, and it is not taken for the schema. -/
theorem imitatingShape_told_apart :
    Transparent imitatingShape ∧ Transparent objectSchema ∧
      (∃ t, imitatingShape.tree = .ok t ∧ t.ofTree? = some imitatingShape.stripped) ∧
      (imitatingShape.tree = objectSchema.tree ↔
        imitatingShape.stripped = objectSchema.stripped) :=
  ⟨imitatingShape_transparent, objectSchema_transparent,
    tree_determines_schema imitatingShape_transparent objectSchema_transparent⟩

end ShapeCheck.Value
