import Courier.Text.Extending
import Courier.Text.Unprintable

/-!
# Texts in descriptions

Descriptions for people show a text in quotes, with quotes, backslashes and characters that cannot
be seen escaped.
-/

namespace Courier.Text

/-- Characters that a description shows by their code point: those that show nothing, and those that
combine with their neighbour. -/
def isUnseen (n : Nat) : Bool :=
  if n < 0x7F then decide (n < 0x20) else isUnprintable n || isExtending n

/-- One character of a description. -/
def shown (c : Char) : List Char :=
  if c = '"' then ['\\', '"']
  else if c = '\\' then ['\\', '\\']
  else if c = '\n' then ['\\', 'n']
  else if c = '\r' then ['\\', 'r']
  else if c = '\t' then ['\\', 't']
  else if c.toNat = 0 then ['\\', '0']
  else if isUnseen c.toNat then
    '\\' :: 'u' :: '\x7b' :: (Nat.toDigits 16 c.toNat ++ ['\x7d'])
  else [c]

/-- A text in quotes. -/
def described (s : String) : String := String.ofList ('"' :: (s.toList.flatMap shown ++ ['"']))

/-- A text that may be absent. -/
def describedOption : Option String → String
  | none => "None"
  | some s => "Some(" ++ described s ++ ")"

/-- A value with its fields. -/
def describedRecord (name : String) (fields : List (String × String)) : String :=
  name ++ " \x7b " ++ ", ".intercalate (fields.map fun f => f.1 ++ ": " ++ f.2) ++ " \x7d"

end Courier.Text
