import ShapeCheck.Value.Elements

/-!
# Building schemas

The combinators that make tagged schemas.  An object schema keeps its required keys
and a mapping of optional keys that always declares the required ones as well, so
that a required key is never taken for an extra one.

`Schema.assemble` puts a schema together from named fields, with any form and any
tag; it refuses fields that the form cannot hold.
-/

namespace ShapeCheck.Schema

/-- A schema without parts. -/
def atomic (tag : Tag) : Value := .tagged 0 tag .atomic

/-- Accepts only the null value. -/
def void : Value := atomic .void

/-- Accepts every value. -/
def anything : Value := atomic .any

/-- Accepts every value that does not count as true. -/
def nullish : Value := atomic .nullish

/-- Accepts the two truth values. -/
def boolean : Value := atomic .boolean

/-- Accepts every value of a family. -/
def ofFamily (f : Family) : Value := .tagged 0 f.tag (.family f)

/-- Accepts the values of a family that a predicate accepts. -/
def checker (f : Family) (predicate : Value) : Except Fault Value :=
  if predicate.isCallable then .ok (.tagged 0 f.checkerTag (.checker f predicate))
  else .error .invalidFields

/-- Accepts sequences whose elements all conform to a schema. -/
def arrayOf (element : Value) : Value := .tagged 0 .array (.array element)

/-- Accepts objects whose own values all conform to a schema. -/
def recordOf (value : Value) : Value := .tagged 0 .record (.record value)

/-- Accepts values that conform to one of the given schemas. -/
def unionOf (alternatives : List Value) : Value := .tagged 0 .union (.union alternatives)

/-- Accepts values that conform to one of the schemas that a value yields. -/
def union (alternatives : Value) : Except Fault Value := alternatives.elements.map unionOf

/-- The schema of objects with required and optional keys, given the entries of both. -/
def optionalOf (required optional : List (Value × Value)) : Value :=
  let own := Value.collectEntries required
  .tagged 0 .objectOptional (.optional own (Value.mergeEntries own optional))

/-- Accepts objects that have every key of `required` and may have those of `optional`.
The required mapping must not declare the wildcard. -/
def withOptional (required optional : Value) : Except Fault Value := do
  if ← required.contains .wildcard then throw .wildcardRequired
  let entries ← required.entriesOf
  match required, optional with
  | .mapping .., .mapping _ _ others => return optionalOf entries others
  | _, _ => throw .wrongType

/-- Merges shapes into one; later shapes win on shared keys. -/
def mergeShapes (shapes : List Value) : Except Fault Value := do
  let merged ← shapes.foldlM (fun merged shape => do
    return Value.mergeEntries merged (← shape.entriesOf)) []
  return .dict merged

/-- Merges the shapes that a value yields; a single shape is returned as it is. -/
def join (shapes : Value) : Except Fault Value := do
  if (← shapes.length) = 1 then shapes.subscript (.int 0)
  else mergeShapes (← shapes.elements)

/-- The tag among named fields: given by its spelling, or the usual one of the form. -/
def tagField (fields : List (String × Value)) (usual : Option Tag) : Except Fault Tag :=
  match fields.lookup "tag" with
  | some v =>
    match v.asText?.bind Tag.ofLabel? with
    | some tag => .ok tag
    | none => .error .invalidFields
  | none =>
    match usual with
    | some tag => .ok tag
    | none => .error .invalidFields

/-- The family among named fields. -/
def familyField (fields : List (String × Value)) : Except Fault Family :=
  match (fields.lookup "family").bind fun v => v.asText?.bind Family.ofLabel? with
  | some f => .ok f
  | none => .error .invalidFields

/-- A field that may hold any value. -/
def anyField (fields : List (String × Value)) (name : String) : Except Fault Value :=
  match fields.lookup name with
  | some v => .ok v
  | none => .error .invalidFields

/-- A field that holds a mapping. -/
def mappingField (fields : List (String × Value)) (name : String) :
    Except Fault (List (Value × Value)) :=
  match fields.lookup name with
  | some (.mapping _ _ entries) => .ok entries
  | _ => .error .invalidFields

/-- A field that holds a collection of schemas: anything with elements but texts, byte
strings and mappings. -/
def collectionField (fields : List (String × Value)) (name : String) :
    Except Fault (List Value) :=
  match fields.lookup name with
  | none | some (.atom ..) | some (.mapping ..) | some (.buffer ..) => .error .invalidFields
  | some v =>
    match v.elements with
    | .ok items => .ok items
    | .error _ => .error .invalidFields

/-- Puts a schema together from the name of its form and its named fields. -/
def assemble (formName : String) (fields : List (String × Value)) : Except Fault Value := do
  if formName = "Descriptor" then return .tagged 0 (← tagField fields none) .bare
  else if formName = "AtomicDescriptor" then return .tagged 0 (← tagField fields none) .atomic
  else if formName = "PrimitiveDescriptor" then
    return .tagged 0 (← tagField fields none) (.family (← familyField fields))
  else if formName = "CheckerDescriptor" then
    let tag ← tagField fields none
    let f ← familyField fields
    let predicate ← anyField fields "predicate"
    if predicate.isCallable then return .tagged 0 tag (.checker f predicate)
    else throw .invalidFields
  else if formName = "ArrayDescriptor" then
    return .tagged 0 (← tagField fields (some .array)) (.array (← anyField fields "element"))
  else if formName = "RecordDescriptor" then
    return .tagged 0 (← tagField fields (some .record)) (.record (← anyField fields "value_type"))
  else if formName = "OptionalObjectDescriptor" then
    return .tagged 0 (← tagField fields (some .objectOptional))
      (.optional (← mappingField fields "required") (← mappingField fields "optional"))
  else if formName = "UnionDescriptor" then
    return .tagged 0 (← tagField fields (some .union))
      (.union (← collectionField fields "alternatives"))
  else throw .invalidFields

end ShapeCheck.Schema
