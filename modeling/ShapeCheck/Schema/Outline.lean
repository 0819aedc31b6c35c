import ShapeCheck.Mismatch.Listing

/-!
# Schemas as data

A schema is laid out as a tree of plain mappings and lists: `t` holds the tag of a
schema without parts, and `v` holds anything else, namely a shape part by part, a
schema with parts under their names, the name of a predicate, or a literal as it is.
-/

namespace ShapeCheck.Value

/-- The key under which an entry of a shape is laid out: texts, numbers and constants
as they are, anything else by its plain text. -/
def outlineKey (key : Value) : Except Fault Value :=
  match key with
  | atom _ .null | atom _ (.bool _) | atom _ (.text ..) | atom _ (.number (.int ..))
  | atom _ (.number (.binary _)) | atom _ (.symbol (.textual ..))
  | atom _ (.symbol (.numeric ..)) | atom _ (.symbol (.quantity _ _ (.int ..)))
  | atom _ (.symbol (.quantity _ _ (.binary _))) =>
    .ok key
  | _ => key.plain.map text

/-- The outline of a schema that has no parts. -/
def tagOutline (tag : Tag) : Value := dict [(text "t", text tag.label)]

/-- The outline around a structure. -/
def structureOutline (v : Value) : Value := dict [(text "v", v)]

/-- The outline of a schema with parts. -/
def partsOutline (tag : Tag) (parts : List (String × Value)) : Value :=
  structureOutline (dict ((text "tag", text tag.label) :: fieldEntries parts))

mutual

/-- The outline of a schema. -/
def outline : Value → Except Fault Value
  | tagged mark tag form => outlineForm mark tag form
  | mapping _ _ entries => do
    return structureOutline (dict (collectEntries (← outlineEntries entries)))
  | sequence _ _ items => do return structureOutline (list (← outlineItems items))
  | v =>
    if v.isCallable then (describeCallable v).map fun s => structureOutline (text s)
    else .ok (structureOutline v)
termination_by structural v => v

def outlineForm (mark : Nat) (tag : Tag) : Form Value → Except Fault Value
  | .bare => .ok (structureOutline (tagged mark tag .bare))
  | .atomic | .family _ | .checker .. => .ok (tagOutline tag)
  | .array element => do return partsOutline tag [("element", ← element.outline)]
  | .record value => do return partsOutline tag [("value_type", ← value.outline)]
  | .optional required optional => do
    let required ← outlineEntries required
    let optional ← outlineEntries optional
    return partsOutline tag [("required", dict (collectEntries required)),
      ("optional", dict (collectEntries optional))]
  | .union alternatives => do
    return partsOutline tag [("alternatives", list (← outlineItems alternatives))]
termination_by structural form => form

def outlineItems : List Value → Except Fault (List Value)
  | [] => .ok []
  | v :: rest => do return (← v.outline) :: (← outlineItems rest)
termination_by structural items => items

def outlineEntries : List (Value × Value) → Except Fault (List (Value × Value))
  | [] => .ok []
  | (k, v) :: rest => do
    let key ← outlineKey k
    return (key, ← v.outline) :: (← outlineEntries rest)
termination_by structural entries => entries

end

end ShapeCheck.Value
