import Courier.Json.Printer
import Courier.Json.Record

/-!
# Texts and back

A text that is written in quotes is read back, whatever it consists of.  A document is bytes, and
the reader looks at one byte after the other, so the characters are followed through their UTF-8
form: what needs no escape has only bytes that stand for themselves inside quotes, and what is
escaped is one byte.

Main statement: `textAfterQuote_quoted`.
-/

namespace Courier

namespace Bytes

/-- The UTF-8 form of characters. -/
def ofChars (l : List Char) : Bytes := l.flatMap String.utf8EncodeChar

theorem ofString_ofList (l : List Char) : ofString (String.ofList l) = ofChars l := by
  simp [ofString, ofChars, List.utf8Encode]

theorem ofChars_append (l m : List Char) : ofChars (l ++ m) = ofChars l ++ ofChars m := by
  simp [ofChars]

theorem ofChars_cons (c : Char) (l : List Char) :
    ofChars (c :: l) = String.utf8EncodeChar c ++ ofChars l := by
  simp [ofChars]

/-- A character of seven bits is one byte. -/
theorem utf8EncodeChar_ascii {c : Char} (h : c.toNat < 128) :
    String.utf8EncodeChar c = [UInt8.ofNat c.toNat] := by
  have hval : c.val.toNat ≤ 127 := Nat.le_of_lt_succ h
  simp only [String.utf8EncodeChar, if_pos hval]
  rfl

/-- Any other character has only bytes of eight bits. -/
theorem le_of_mem_utf8EncodeChar {c : Char} {b : UInt8} (h : 128 ≤ c.toNat)
    (hb : b ∈ String.utf8EncodeChar c) : 128 ≤ b.toNat := by
  have hval : ¬c.val.toNat ≤ 127 := by
    have : c.toNat = c.val.toNat := rfl
    omega
  simp only [String.utf8EncodeChar, if_neg hval] at hb
  split at hb
  · simp only [List.mem_cons, List.not_mem_nil, or_false] at hb
    rcases hb with rfl | rfl <;> simp only [UInt8.toNat_ofNat'] <;> omega
  split at hb
  · simp only [List.mem_cons, List.not_mem_nil, or_false] at hb
    rcases hb with rfl | rfl | rfl <;> simp only [UInt8.toNat_ofNat'] <;> omega
  · simp only [List.mem_cons, List.not_mem_nil, or_false] at hb
    rcases hb with rfl | rfl | rfl | rfl <;> simp only [UInt8.toNat_ofNat'] <;> omega

end Bytes

namespace Json

/-- A byte stands for itself inside quotes. -/
def isPlain (b : UInt8) : Bool := b != byte '"' && b != byte '\\' && !decide (b < 32)

theorem textBody_plain {b : UInt8} (acc rest : Bytes) (h : isPlain b = true) :
    textBody acc (b :: rest) = textBody (b :: acc) rest := by
  simp only [isPlain, Bool.and_eq_true, bne_iff_ne, Bool.not_eq_true', decide_eq_false_iff_not] at h
  obtain ⟨⟨hquote, hbackslash⟩, hcontrol⟩ := h
  rw [textBody.eq_def]
  simp only [if_neg hquote, if_neg hbackslash, if_neg hcontrol]

theorem textBody_append {bs : Bytes} (acc rest : Bytes) (h : ∀ b ∈ bs, isPlain b = true) :
    textBody acc (bs ++ rest) = textBody (bs.reverse ++ acc) rest := by
  induction bs generalizing acc with
  | nil => rfl
  | cons b bs ih =>
    rw [List.cons_append, textBody_plain acc _ (h b List.mem_cons_self),
      ih _ fun x hx => h x (List.mem_cons_of_mem b hx)]
    simp

/-- A one-letter escape is one byte. -/
theorem textBody_short {e x : UInt8} (acc rest : Bytes) (he : e ≠ byte 'u')
    (hx : shortEscape? e = some x) :
    textBody acc (byte '\\' :: e :: rest) = textBody (x :: acc) rest := by
  rw [textBody.eq_def]
  simp [byte, hx] at he ⊢
  simp [he]

/-- A four-digit escape of a control character is one byte. -/
theorem textBody_control {h l : UInt8} {n : Nat} (acc rest : Bytes) (hn : n < 32)
    (hhex : hex4? (byte '0') (byte '0') h l = some n) :
    textBody acc (byte '\\' :: byte 'u' :: byte '0' :: byte '0' :: h :: l :: rest) =
      textBody (UInt8.ofNat n :: acc) rest := by
  have htrail : isTrail n = false := by
    simp [isTrail]
    omega
  have hlead : isLead n = false := by
    simp [isLead]
    omega
  have hcode : codeBytes n = [UInt8.ofNat n] := if_pos (by omega)
  have hquote : byte '\\' ≠ byte '"' := by decide
  rw [textBody.eq_def]
  simp only [if_neg hquote, if_true, hhex, htrail, hlead, hcode, List.reverse_singleton,
    List.singleton_append, Bool.false_eq_true, if_false]

/-- A hexadecimal digit is read back. -/
theorem hexValue?_hexDigit : ∀ n < 16, hexValue? (byte (hexDigit n)) = some n := by
  decide

theorem hexDigit_lt : ∀ n < 16, (hexDigit n).toNat < 128 := by
  decide

theorem isPlain_of_le {b : UInt8} (h : 128 ≤ b.toNat) : isPlain b = true := by
  have hquote : b ≠ byte '"' := by
    rintro rfl
    exact absurd h (by decide)
  have hbackslash : b ≠ byte '\\' := by
    rintro rfl
    exact absurd h (by decide)
  have hcontrol : ¬b < 32 := by
    rw [UInt8.lt_iff_toNat_lt]
    have : (32 : UInt8).toNat = 32 := rfl
    omega
  simp [isPlain, hquote, hbackslash, hcontrol]

/-- A character that needs no escape has plain bytes only. -/
theorem isPlain_of_mem {c : Char} {b : UInt8} (hquote : c ≠ '"') (hbackslash : c ≠ '\\')
    (hcontrol : ¬c.toNat < 32) (hb : b ∈ String.utf8EncodeChar c) : isPlain b = true := by
  by_cases hascii : c.toNat < 128
  · rw [Bytes.utf8EncodeChar_ascii hascii] at hb
    obtain rfl := List.mem_singleton.mp hb
    have htoNat : (UInt8.ofNat c.toNat).toNat = c.toNat := by
      rw [UInt8.toNat_ofNat']
      omega
    have hne : ∀ d : Char, d.toNat < 128 → c ≠ d → UInt8.ofNat c.toNat ≠ byte d := by
      intro d hd hcd heq
      refine hcd (Char.toNat_inj.mp ?_)
      have hnat := congrArg UInt8.toNat heq
      rw [htoNat, byte, UInt8.toNat_ofNat'] at hnat
      omega
    have hle : ¬UInt8.ofNat c.toNat < 32 := by
      rw [UInt8.lt_iff_toNat_lt, htoNat]
      exact hcontrol
    simp [isPlain, hne '"' (by decide) hquote, hne '\\' (by decide) hbackslash, hle]
  · exact isPlain_of_le (Bytes.le_of_mem_utf8EncodeChar (by omega) hb)

/-- The form of a control character that has no letter of its own. -/
theorem ofChars_control {n : Nat} (h : n < 32) :
    Bytes.ofChars ['\\', 'u', '0', '0', hexDigit (n / 16), hexDigit (n % 16)] =
      [byte '\\', byte 'u', byte '0', byte '0', byte (hexDigit (n / 16)),
        byte (hexDigit (n % 16))] := by
  have hhigh : (hexDigit (n / 16)).toNat < 128 := hexDigit_lt _ (by omega)
  have hlow : (hexDigit (n % 16)).toNat < 128 := hexDigit_lt _ (by omega)
  simp only [Bytes.ofChars, List.flatMap_cons, List.flatMap_nil,
    Bytes.utf8EncodeChar_ascii hhigh, Bytes.utf8EncodeChar_ascii hlow]
  rfl

theorem hex4?_control {n : Nat} (h : n < 32) :
    hex4? (byte '0') (byte '0') (byte (hexDigit (n / 16))) (byte (hexDigit (n % 16))) = some n := by
  have hzero : hexValue? (byte '0') = some 0 := by decide
  simp only [hex4?, hzero, hexValue?_hexDigit _ (show n / 16 < 16 by omega),
    hexValue?_hexDigit _ (show n % 16 < 16 by omega), Option.bind_eq_bind, Option.bind_some,
    Option.some.injEq]
  omega

/-- **A character is read back from its form inside quotes.** -/
theorem textBody_escaped (c : Char) (acc rest : Bytes) :
    textBody acc (Bytes.ofChars (escaped c) ++ rest) =
      textBody ((String.utf8EncodeChar c).reverse ++ acc) rest := by
  unfold escaped
  split
  · next h =>
    subst h
    exact textBody_short acc rest (by decide) (by decide)
  split
  · next h =>
    subst h
    exact textBody_short acc rest (by decide) (by decide)
  split
  · next h =>
    subst h
    exact textBody_short acc rest (by decide) (by decide)
  split
  · next h =>
    subst h
    exact textBody_short acc rest (by decide) (by decide)
  split
  · next h =>
    subst h
    exact textBody_short acc rest (by decide) (by decide)
  split
  · next h =>
    obtain rfl : c = Char.ofNat 8 := by rw [← h, Char.ofNat_toNat]
    exact textBody_short acc rest (by decide) (by decide)
  split
  · next h =>
    obtain rfl : c = Char.ofNat 12 := by rw [← h, Char.ofNat_toNat]
    exact textBody_short acc rest (by decide) (by decide)
  split
  · next h =>
    rw [ofChars_control h, Bytes.utf8EncodeChar_ascii (by omega)]
    exact textBody_control acc rest h (hex4?_control h)
  · next hquote hbackslash _ _ _ _ _ hcontrol =>
    rw [Bytes.ofChars_cons, show Bytes.ofChars [] = [] from rfl, List.append_nil]
    exact textBody_append acc rest fun b hb => isPlain_of_mem hquote hbackslash hcontrol hb

/-- The characters of a text are read back up to the closing quote. -/
theorem textBody_body (l : List Char) (acc rest : Bytes) :
    textBody acc (Bytes.ofChars (l.flatMap escaped) ++ byte '"' :: rest) =
      .ok (acc.reverse ++ Bytes.ofChars l, rest) := by
  induction l generalizing acc with
  | nil =>
    rw [List.flatMap_nil, textBody.eq_def]
    simp [Bytes.ofChars]
  | cons c l ih =>
    rw [List.flatMap_cons, Bytes.ofChars_append, List.append_assoc, textBody_escaped, ih,
      Bytes.ofChars_cons]
    simp

/-- **A text is read back from its form in quotes.** -/
theorem textAfterQuote_quoted (s : String) (rest : Bytes) :
    textAfterQuote (Bytes.ofChars (s.toList.flatMap escaped) ++ byte '"' :: rest) =
      .ok (s, rest) := by
  have hbytes : Bytes.ofChars s.toList = Bytes.ofString s := by
    rw [← Bytes.ofString_ofList, String.ofList_toList]
  rw [textAfterQuote, textBody_body, List.reverse_nil, List.nil_append, hbytes]
  simp only [Bytes.text?_ofString]

/-- A text in quotes begins with a quote and ends with one. -/
theorem ofChars_quoted (s : String) :
    Bytes.ofChars (quoted s) =
      byte '"' :: (Bytes.ofChars (s.toList.flatMap escaped) ++ [byte '"']) := by
  rw [quoted, Bytes.ofChars_cons, Bytes.ofChars_append]
  rfl

theorem textValue_quoted (s : String) (rest : Bytes) :
    textValue (Bytes.ofChars (quoted s) ++ rest) = .ok (s, rest) := by
  rw [ofChars_quoted, List.cons_append, List.append_assoc, textValue]
  have hblank : skipBlanks (byte '"' ::
      (Bytes.ofChars (s.toList.flatMap escaped) ++ ([byte '"'] ++ rest))) =
      byte '"' :: (Bytes.ofChars (s.toList.flatMap escaped) ++ ([byte '"'] ++ rest)) := rfl
  rw [hblank]
  exact textAfterQuote_quoted s rest

end Json
end Courier
