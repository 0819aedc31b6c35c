import ShapeCheck.Proofs.TextKeys
import ShapeCheck.Proofs.Verdicts

/-!
# Declared keys of values with attributes

A value that is looked into by attribute name has more attributes than it lists: those of
its classes and the computed ones are there without being its own.  An accepted value has
an attribute for every declared key, but only what it lists itself has been checked.
-/

namespace ShapeCheck.Check

open Run

variable {σ : Type} {host : Host σ} {W : World σ → Prop} {d v declared shape : Value}
  {w : World σ}

/-- An accepted value has an attribute under every declared key, and whatever it lists
itself under that key conforms to the schema that the shape has for it. -/
theorem accepted_attributes (hkeyed : Keyed d v declared shape) (hv : v.HasAttributes)
    (hpure : Pure host W d v) (hw : W w)
    (haccepts : ((check host d v).startedIn w).1 = .ok none) :
    ∀ entry ∈ declared.listing.members, entry.1.isWildcard = false →
      ∃ name held, entry.1.asText? = some name ∧ v.attribute? name = .ok (some held) ∧
        ∀ own ∈ v.listing.members, own.1.asText? = some name →
          ∃ schema, shape.Assigns entry.1 schema ∧ Accepts host W schema own.2 := by
  intro entry hentry hwildcard
  have hrun : (check host d v).startedIn w = (.ok none, _) := Prod.ext haccepts rfl
  obtain ⟨hdeclared, hmembers⟩ := hkeyed.accepts hpure hw hrun
  have hkey := hdeclared entry hentry hwildcard
  obtain ⟨held, hheld⟩ := Value.get_of_hasKey hkey
  obtain ⟨name, hname, hattribute⟩ := hv.holds_iff.mp ⟨hkey, hheld⟩
  refine ⟨name, held, hname, hattribute, ?_⟩
  intro own hown hownName
  obtain ⟨⟨schema, hassigns⟩, haccepted⟩ := hmembers own hown
  exact ⟨schema, hassigns.of_sameText hownName hname, haccepted schema hassigns⟩

/-- Any number. -/
def countSchema : Value := .tagged 0 .number (.family .number)

/-- Values that hold a number. -/
def countedSchema : Value := .dict [(.text "a", countSchema)]

/-- A bare collection of fields that holds a number has been checked there. -/
theorem accepted_attributes_record :
    ∃ name held, (Value.text "a").asText? = some name ∧
      (Value.record 0 [("a", .int 1)]).attribute? name = .ok (some held) ∧
      ∀ own ∈ (Value.record 0 [("a", .int 1)]).listing.members, own.1.asText? = some name →
        ∃ schema, countedSchema.Assigns (.text "a") schema ∧
          Accepts agreeable (fun w => w.cached = some .standard) schema own.2 :=
  accepted_attributes (.shape rfl rfl) ⟨rfl, rfl⟩ (agreeable_pure _ _) (w := calm) rfl rfl
    (.text "a", countSchema) List.mem_cons_self rfl

/-- An instance of a class with an attribute of its own. -/
def classHolds (held : Value) : Value :=
  .object 0 [⟨"C", .absent, [("a", held)], none, none, none, false⟩] [] []

/-- What an instance has by its class alone is accepted unchecked. -/
theorem class_attribute_unchecked :
    Pure agreeable (fun w => w.cached = some .standard) countedSchema (classHolds (.text "x")) ∧
      ((check agreeable countedSchema (classHolds (.text "x"))).startedIn calm).1 = .ok none ∧
      (classHolds (.text "x")).attribute? "a" = .ok (some (.text "x")) ∧
      ((check agreeable countSchema (.text "x")).startedIn calm).1 =
        .ok (some (.incorrectType countSchema (.text "x"))) :=
  ⟨agreeable_pure _ _, rfl, rfl, rfl⟩

end ShapeCheck.Check
