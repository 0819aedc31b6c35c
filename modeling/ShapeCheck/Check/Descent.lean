import ShapeCheck.Value

/-!
# How deep a schema is

The number of steps that a check can go down from a schema to the schemas of parts.
Looking an attribute up may lead to the mapping of all attributes, so a value that is
looked into by attribute name counts one step more than a container.
-/

namespace ShapeCheck.Value

mutual

/-- The greatest number of steps from a schema down to the schema of a part. -/
def descent : Value → Nat
  | sequence _ _ items => descentItems items + 1
  | mapping _ _ entries => descentEntries entries + 1
  | bag .. | buffer .. | range .. | mismatch .. | slotAccessor .. | failing _ => 1
  | record _ fields => descentFields fields + 2
  | object _ layers slots fields =>
    max (descentLayers layers) (max (descentFields slots) (descentFields fields)) + 2
  | computed inner => inner.descent + 1
  | function _ _ _ schema => descentOption schema
  | applied _ callee => callee.descent
  | decorated bindsClass inner => if bindsClass then inner.descent + 1 else inner.descent
  | guard _ _ schema | method (guard _ _ schema) _ => schema.descent + 1
  | tagged _ _ form => descentForm form + 1
  | atom .. | classObject .. | method .. | native _ => 0
termination_by structural v => v

def descentItems : List Value → Nat
  | [] => 0
  | v :: rest => max v.descent (descentItems rest)
termination_by structural items => items

def descentEntries : List (Value × Value) → Nat
  | [] => 0
  | (_, v) :: rest => max v.descent (descentEntries rest)
termination_by structural entries => entries

def descentFields : List (String × Value) → Nat
  | [] => 0
  | (_, v) :: rest => max v.descent (descentFields rest)
termination_by structural fields => fields

def descentLayers : List (Layer Value) → Nat
  | [] => 0
  | ⟨_, _, attrs, _, _, _, _⟩ :: rest => max (descentFields attrs) (descentLayers rest)
termination_by structural layers => layers

def descentOption : Option Value → Nat
  | none => 0
  | some v => v.descent + 1
termination_by structural schema => schema

def descentForm : Form Value → Nat
  | .bare | .atomic | .family _ => 0
  | .checker _ predicate => predicate.descent
  | .array element => element.descent
  | .record value => value.descent
  | .optional _ optional => descentEntries optional
  | .union alternatives => descentItems alternatives
termination_by structural form => form

end

variable {mark : Nat}

theorem descent_sequence (kind : SequenceKind) (items : List Value) :
    (sequence mark kind items).descent = descentItems items + 1 :=
  rfl

theorem descent_mapping (kind : MappingKind) (entries : List (Value × Value)) :
    (mapping mark kind entries).descent = descentEntries entries + 1 :=
  rfl

theorem descent_object (layers : List (Layer Value)) (slots fields : List (String × Value)) :
    (object mark layers slots fields).descent =
      max (descentLayers layers) (max (descentFields slots) (descentFields fields)) + 2 :=
  rfl

theorem descent_function (name : Option String) (attrs : List (String × Value)) (schema : Value) :
    (function mark name attrs (some schema)).descent = schema.descent + 1 :=
  rfl

theorem descent_guard (name : String) (schema : Value) :
    (guard mark name schema).descent = schema.descent + 1 :=
  rfl

theorem descent_tagged (tag : Tag) (form : Form Value) :
    (tagged mark tag form).descent = descentForm form + 1 :=
  rfl

theorem descentItems_cons (v : Value) (rest : List Value) :
    descentItems (v :: rest) = max v.descent (descentItems rest) :=
  rfl

theorem descentEntries_cons (e : Value × Value) (rest : List (Value × Value)) :
    descentEntries (e :: rest) = max e.2.descent (descentEntries rest) :=
  rfl

theorem descentFields_cons (field : String × Value) (rest : List (String × Value)) :
    descentFields (field :: rest) = max field.2.descent (descentFields rest) :=
  rfl

theorem descentLayers_cons (layer : Layer Value) (rest : List (Layer Value)) :
    descentLayers (layer :: rest) = max (descentFields layer.attrs) (descentLayers rest) :=
  rfl

end ShapeCheck.Value
