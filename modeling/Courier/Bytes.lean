/-!
# Byte strings

Payloads and documents travel as byte strings.  Text becomes bytes by its UTF-8 form, and a byte
string is text exactly when it is the UTF-8 form of something.
-/

namespace Courier

/-- A byte string, first byte first. -/
abbrev Bytes := List UInt8

namespace Bytes

/-- The UTF-8 form of a text. -/
def ofString (s : String) : Bytes := s.toByteArray.data.toList

/-- The text whose UTF-8 form these bytes are, if there is one. -/
def text? (b : Bytes) : Option String := String.fromUTF8? ⟨b.toArray⟩

/-- Writing a text as bytes and reading it back gives the text. -/
theorem text?_ofString (s : String) : text? (ofString s) = some s := by
  simp [text?, ofString, String.fromUTF8?, String.fromUTF8, s.isValidUTF8]

end Bytes
end Courier
