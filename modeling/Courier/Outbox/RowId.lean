import Courier.Json.Printer
import Courier.Json.Reader

/-!
# Row ids

An outbox row is identified by 128 bits.  They are written as 32 lower-case hexadecimal digits in
five groups.  Reading also accepts upper case, the plain digits without hyphens, and the grouped
form inside braces or after its resource name.
-/

namespace Courier

/-- What identifies an outbox row. -/
structure RowId where
  bits : BitVec 128
deriving DecidableEq, Repr, Inhabited

namespace RowId

/-- The hexadecimal digits of a number, last digit first; `width` of them. -/
def hexDigitsReversed : Nat → Nat → List Char
  | 0, _ => []
  | width + 1, n => Json.hexDigit (n % 16) :: hexDigitsReversed width (n / 16)

/-- The 32 digits of an id. -/
def digits (id : RowId) : List Char := (hexDigitsReversed 32 id.bits.toNat).reverse

/-- Digits in groups of 8, 4, 4, 4 and 12. -/
def grouped (ds : List Char) : List Char :=
  ds.take 8 ++ '-' :: ((ds.drop 8).take 4 ++ '-' :: ((ds.drop 12).take 4 ++ '-' ::
    ((ds.drop 16).take 4 ++ '-' :: ds.drop 20)))

/-- The written form of an id. -/
def text (id : RowId) : String := String.ofList (grouped id.digits)

/-- The value of a hexadecimal digit of either case. -/
def digitValue? (c : Char) : Option Nat :=
  if 'a' ≤ c ∧ c ≤ 'f' then some (c.toNat - 87)
  else if 'A' ≤ c ∧ c ≤ 'F' then some (c.toNat - 55)
  else if '0' ≤ c ∧ c ≤ '9' then some (c.toNat - 48)
  else none

/-- The id written by 32 digits. -/
def ofDigits? (ds : List Char) : Option RowId := do
  guard (ds.length = 32)
  let values ← ds.mapM digitValue?
  some ⟨BitVec.ofNat 128 (values.foldl (fun n d => n * 16 + d) 0)⟩

/-- The id written in groups. -/
def ofGroups? (s : List Char) : Option RowId := do
  guard (s.length = 36)
  guard (s[8]? = some '-' ∧ s[13]? = some '-' ∧ s[18]? = some '-' ∧ s[23]? = some '-')
  ofDigits? (s.take 8 ++ (s.drop 9).take 4 ++ (s.drop 14).take 4 ++ (s.drop 19).take 4 ++ s.drop 24)

/-- The resource name that may stand in front of the groups, in any case. -/
def resourceName : List Char := ['u', 'r', 'n', ':', 'u', 'u', 'i', 'd', ':']

/-- Read an id. -/
def read? (text : String) : Option RowId :=
  let s := text.toList
  if s.length = 32 then ofDigits? s
  else if s.length = 36 then ofGroups? s
  else if s.length = 38 ∧ s.head? = some '{' ∧ s.getLast? = some '}' then
    ofGroups? ((s.drop 1).take 36)
  else if s.length = 45 ∧ (s.take 9).map Char.toLower = resourceName then ofGroups? (s.drop 9)
  else none

end RowId
end Courier
