import ShapeCheck.Value

/-!
# Texts spelled by bytes

Where a text is asked for, a byte string that spells one in UTF-8 may stand in for it.
-/

namespace ShapeCheck

/-- The text that bytes spell, if they are well formed. -/
def Text.ofUtf8? (bytes : List UInt8) : Option String := String.fromUTF8? ⟨bytes.toArray⟩

/-- The text that a value is, or that its bytes spell. -/
def Value.spelledText? : Value → Option String
  | .atom _ (.bytes bytes) | .buffer _ bytes => Text.ofUtf8? bytes
  | v => v.asText?

end ShapeCheck
