import Courier.Bytes
import Courier.Decimal.Shortest
import Courier.Json.Basic

/-!
# Writing JSON

Values are written without blanks.  In a text, quotes, backslashes and control characters are
escaped and everything else stands for itself.  Doubles always carry a point or an exponent.
-/

namespace Courier.Json

/-- A hexadecimal digit, in lower case. -/
def hexDigit (n : Nat) : Char := if n < 10 then Char.ofNat (48 + n) else Char.ofNat (87 + n)

/-- One character inside quotes. -/
def escaped (c : Char) : List Char :=
  if c = '"' then ['\\', '"']
  else if c = '\\' then ['\\', '\\']
  else if c = '\n' then ['\\', 'n']
  else if c = '\r' then ['\\', 'r']
  else if c = '\t' then ['\\', 't']
  else if c.toNat = 8 then ['\\', 'b']
  else if c.toNat = 12 then ['\\', 'f']
  else if c.toNat < 32 then
    ['\\', 'u', '0', '0', hexDigit (c.toNat / 16), hexDigit (c.toNat % 16)]
  else [c]

/-- A text in quotes. -/
def quoted (s : String) : List Char := '"' :: (s.toList.flatMap escaped ++ ['"'])

/-- A number of a document. -/
def numberText : JsonNumber → List Char
  | .whole n => (if n < 0 then ['-'] else []) ++ (Nat.repr n.natAbs).toList
  | .double x => Decimal.documentText x

mutual

/-- The written form of a value. -/
def render : Json → List Char
  | .null => ['n', 'u', 'l', 'l']
  | .bool true => ['t', 'r', 'u', 'e']
  | .bool false => ['f', 'a', 'l', 's', 'e']
  | .number n => numberText n
  | .text s => quoted s
  | .list items => '[' :: renderItems items
  | .object members => '{' :: renderMembers members

/-- Items up to the closing bracket. -/
def renderItems : List Json → List Char
  | [] => [']']
  | [v] => render v ++ [']']
  | v :: w :: rest => render v ++ ',' :: renderItems (w :: rest)

/-- Members up to the closing brace. -/
def renderMembers : List (String × Json) → List Char
  | [] => ['}']
  | [(k, v)] => quoted k ++ ':' :: (render v ++ ['}'])
  | (k, v) :: m :: rest => quoted k ++ ':' :: (render v ++ ',' :: renderMembers (m :: rest))

end

/-- The written form of a value as text. -/
def toText (v : Json) : String := String.ofList (render v)

/-- The written form of a value as bytes. -/
def toBytes (v : Json) : Bytes := Bytes.ofString (toText v)

end Courier.Json
