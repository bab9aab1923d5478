import Courier.Proofs.Messages.Numbers
import Courier.Proofs.Time.Calendar
import Courier.Time.Text
import Mathlib.Data.List.TakeWhile

/-!
# Instants and back

An instant is read back from its text.  The reader takes one field after the other, so each written
field is read by itself, whatever follows it: `field_padded`, `year_yearText`,
`fractionDigits_fractionText`.  The date comes back because every count of days is the count of its
date.

A leap second is written as the second numbered 60, so it has to be the last one of its minute
(`OnClock`).  An instant in a leap second elsewhere is written like one in the second after it,
which is what comes back: `shown`.  Such an instant can be put together, but it is never read from
a text, counted in nanoseconds or reached by moving from one that was.

Main statements: `read?_localText`, `onClock_of_read?`, `onClock_add`.
-/

namespace Courier.Instant

open Json (Digital digital_toDigits digital_zeros ofDigitChars_lt)
open Text (isBlank trimStart)

variable {t u : Instant} {c : Char} {cs rest : List Char} {n width : Nat}

/-! ## Numbers -/

theorem digital_padded (width n : Nat) : Digital (padded width n) :=
  (digital_zeros _).append (digital_toDigits n)

theorem padded_ne_nil (width n : Nat) : padded width n ≠ [] := by
  simp [padded, Nat.toDigits_ne_nil]

/-- The zeros in front do not count. -/
theorem ofDigitChars_padded (width n : Nat) : Nat.ofDigitChars 10 (padded width n) 0 = n := by
  rw [padded, Nat.ofDigitChars_append, Nat.ofDigitChars_replicate_zero, Nat.mul_zero,
    Nat.ofDigitChars_ten_toDigits]

theorem length_padded (hwidth : 0 < width) (hn : n < 10 ^ width) :
    (padded width n).length = width := by
  have hle := (Nat.length_toDigits_le_iff (by decide) hwidth).mpr hn
  rw [padded, List.length_append, List.length_replicate]
  omega

/-- Nothing that continues a number of at most so many digits follows these digits. -/
def EndsNumber (width : Nat) (cs rest : List Char) : Prop :=
  cs.length ≤ width ∧ (cs.length = width ∨ ∀ c, rest.head? = some c → c.isDigit = false)

/-- As many digits as a number may have end it. -/
theorem endsNumber_padded (hwidth : 0 < width) (hn : n < 10 ^ width) (rest : List Char) :
    EndsNumber width (padded width n) rest := by
  have hlength := length_padded hwidth hn
  exact ⟨Nat.le_of_eq hlength, .inl hlength⟩

/-- What is no digit ends a number. -/
theorem endsNumber_cons (hlength : cs.length ≤ width) (hc : c.isDigit = false) :
    EndsNumber width cs (c :: rest) := by
  refine ⟨hlength, .inr ?_⟩
  intro d hd
  obtain rfl := Option.some.inj hd
  exact hc

/-- The digits of a number one after the other. -/
theorem foldl_digits (cs : List Char) :
    cs.foldl (fun n c => n * 10 + (c.toNat - 48)) 0 = Nat.ofDigitChars 10 cs 0 := by
  rw [Nat.ofDigitChars_eq_foldl]
  simp only [Nat.mul_comm 10]
  rfl

/-- **Digits are read as their number.** -/
theorem number_digits (hcs : Digital cs) (hne : cs ≠ []) (hends : EndsNumber width cs rest) :
    number width (cs ++ rest) = some (Nat.ofDigitChars 10 cs 0, rest) := by
  obtain ⟨hlength, hend⟩ := hends
  have hnone : (rest.take (width - cs.length)).takeWhile Char.isDigit = [] := by
    cases hend with
    | inl hfull => simp [hfull]
    | inr hnot =>
      cases rest with
      | nil => simp
      | cons c rest =>
        have hc : c.isDigit = false := hnot c rfl
        cases width - cs.length <;> simp [hc]
  have hdigits : ((cs ++ rest).take width).takeWhile Char.isDigit = cs := by
    rw [List.take_append, List.take_of_length_le hlength, List.takeWhile_append_of_pos hcs, hnone,
      List.append_nil]
  simp only [number, hdigits, foldl_digits, List.isEmpty_eq_false_iff.mpr hne, Bool.false_eq_true,
    if_false, List.drop_left]

theorem number_padded (hwidth : 0 < width) (hn : n < 10 ^ width) (rest : List Char) :
    number width (padded width n ++ rest) = some (n, rest) := by
  rw [number_digits (digital_padded width n) (padded_ne_nil width n)
    (endsNumber_padded hwidth hn rest), ofDigitChars_padded]

theorem isBlank_of_isDigit (h : c.isDigit = true) : isBlank c = false := by
  have hlow : 48 ≤ c.toNat := (Char.isDigit_iff_toNat.mp h).1
  have hhigh : c.toNat ≤ 57 := (Char.isDigit_iff_toNat.mp h).2
  simp [isBlank]
  omega

theorem trimStart_cons (h : isBlank c = false) (rest : List Char) :
    trimStart (c :: rest) = c :: rest := by
  simp [trimStart, h]

/-- The first digit of a number. -/
theorem exists_padded_eq (width n : Nat) : ∃ d ds, padded width n = d :: ds ∧ d.isDigit = true := by
  obtain ⟨d, ds, h⟩ := List.exists_cons_of_ne_nil (padded_ne_nil width n)
  exact ⟨d, ds, h, digital_padded width n d (h ▸ List.mem_cons_self)⟩

/-- There are no blanks before a number. -/
theorem trimStart_padded (width n : Nat) (rest : List Char) :
    trimStart (padded width n ++ rest) = padded width n ++ rest := by
  obtain ⟨d, ds, h, hd⟩ := exists_padded_eq width n
  rw [h]
  exact trimStart_cons (isBlank_of_isDigit hd) _

theorem field_padded (hn : n < 100) (rest : List Char) :
    field 2 (padded 2 n ++ rest) = some (n, rest) := by
  rw [field, trimStart_padded, number_padded (by decide) hn]

theorem separator_cons (h : isBlank c = false) (rest : List Char) :
    separator c (c :: rest) = some rest := by
  simp [separator, trimStart_cons h]

/-! ## Years and fractions -/

/-- A year is read up to the sign behind it. -/
theorem year_yearText (y : Int) (rest : List Char) :
    year (yearText y ++ '-' :: rest) = some (y, '-' :: rest) := by
  have hsigned : ∀ k : Nat, number (padded 4 k ++ '-' :: rest).length (padded 4 k ++ '-' :: rest) =
      some (k, '-' :: rest) := by
    intro k
    have hends : EndsNumber (padded 4 k ++ '-' :: rest).length (padded 4 k) ('-' :: rest) :=
      endsNumber_cons (by simp) (by decide)
    rw [number_digits (digital_padded 4 k) (padded_ne_nil 4 k) hends, ofDigitChars_padded]
  unfold yearText
  split
  · next hplain =>
    obtain ⟨d, ds, hdigits, hd⟩ := exists_padded_eq 4 y.toNat
    have hread : number 4 (padded 4 y.toNat ++ '-' :: rest) = some (y.toNat, '-' :: rest) :=
      number_padded (by decide) (by omega) _
    have hminus : d ≠ '-' := by
      rintro rfl
      exact absurd hd (by decide)
    have hplus : d ≠ '+' := by
      rintro rfl
      exact absurd hd (by decide)
    have hvalue : ((y.toNat : Nat) : Int) = y := by omega
    unfold year
    rw [trimStart_padded]
    rw [hdigits] at hread ⊢
    split
    · next heq => exact absurd (List.cons.inj heq).1 hminus
    · next heq => exact absurd (List.cons.inj heq).1 hplus
    · rw [hread, Option.map_some, hvalue]
  · next hsign =>
    by_cases hneg : y < 0
    · have hvalue : -((y.natAbs : Nat) : Int) = y := by omega
      rw [if_pos hneg, List.cons_append, year, trimStart_cons (by decide)]
      simp only [hsigned, Option.map_some, hvalue]
    · have hvalue : ((y.natAbs : Nat) : Int) = y := by omega
      rw [if_neg hneg, List.cons_append, year, trimStart_cons (by decide)]
      simp only [hsigned, Option.map_some, hvalue]

/-- Fraction digits are read and scaled by those that are missing. -/
theorem fractionDigits_point (hwidth : 0 < width) (hnine : width ≤ 9) (hn : n < 10 ^ width)
    (hc : c.isDigit = false) (rest : List Char) :
    fractionDigits ('.' :: padded width n ++ c :: rest) =
      some (n * 10 ^ (9 - width), c :: rest) := by
  have hlength := length_padded hwidth hn
  have hends : EndsNumber 9 (padded width n) (c :: rest) := endsNumber_cons (by omega) hc
  have hread := number_digits (digital_padded width n) (padded_ne_nil width n) hends
  have hcount : (padded width n ++ c :: rest).length - (c :: rest).length = width := by
    rw [List.length_append, hlength, Nat.add_sub_cancel]
  have hnone : (c :: rest).dropWhile Char.isDigit = c :: rest := by simp [hc]
  simp only [List.cons_append, fractionDigits, hread, ofDigitChars_padded, hcount, hnone,
    Option.bind_eq_bind, Option.bind_some]
  rfl

theorem fractionDigits_fractionText (t : Instant) (hc : c.isDigit = false) (hpoint : c ≠ '.')
    (rest : List Char) :
    fractionDigits (t.fractionText ++ c :: rest) = some (t.shownFraction, c :: rest) := by
  have hlt : t.shownFraction < 1000000000 := Nat.mod_lt _ (by decide)
  unfold fractionText
  generalize t.shownFraction = n at hlt
  simp only
  split
  · next hzero =>
    rw [List.nil_append, hzero]
    unfold fractionDigits
    split
    · next heq => exact absurd (List.cons.inj heq).1 hpoint
    · rfl
  · split
    · rw [fractionDigits_point (by decide) (by decide) (by omega) hc]
      congr 2
      omega
    · split
      · rw [fractionDigits_point (by decide) (by decide) (by omega) hc]
        congr 2
        omega
      · rw [fractionDigits_point (by decide) (by decide) hlt hc, Nat.pow_zero, Nat.mul_one]

/-! ## What a clock can show -/

/-- A leap second is the last second of its minute. -/
def OnClock (t : Instant) : Prop := t.isLeap = true → t.second % 60 = 59

instance : Decidable t.OnClock := inferInstanceAs (Decidable (_ → _))

theorem onClock_of_not_isLeap (h : t.isLeap = false) : t.OnClock := by
  intro hleap
  exact absurd hleap (by simp [h])

/-- The instant that a text shows: within a leap second in the middle of a minute, the time of the
second after it. -/
def shown (t : Instant) : Instant :=
  if h : 1000000000 ≤ t.fraction ∧ t.second % 60 ≠ 59 then
    { second := t.second + 1, fraction := t.fraction - 1000000000
      lower := by have := t.lower; omega
      upper := by have := t.upper; omega
      fraction_lt := by have := t.fraction_lt; omega }
  else t

/-- A text shows an instant that a clock can show, and no other one. -/
theorem shown_eq_iff : t.shown = t ↔ t.OnClock := by
  unfold shown OnClock
  split
  · next h =>
    constructor
    · intro heq
      have hsecond := congrArg second heq
      simp at hsecond
    · intro hclock
      exact absurd (hclock (by simp [isLeap, h.1])) h.2
  · next h =>
    refine ⟨fun _ hleap => ?_, fun _ => rfl⟩
    simp only [isLeap, decide_eq_true_eq] at hleap
    omega

/-- The instant of a second and a fraction that an instant has. -/
theorem ofParts?_eq (t : Instant) : ofParts? t.second t.fraction = some t :=
  dif_pos ⟨t.lower, t.upper, t.fraction_lt⟩

/-- The fields that are written are those of the instant that is shown. -/
theorem ofFields?_written (t : Instant) :
    ofFields? t.date (t.secondOfDay.toNat / 3600) (t.secondOfDay.toNat / 60 % 60)
      (t.secondOfDay.toNat % 60 + if t.isLeap then 1 else 0) t.shownFraction 0 = some t.shown := by
  have hexists : t.date.exists_ = true := Date.exists_ofDays _
  have hdays : t.date.toDays = t.second / 86400 := Date.toDays_ofDays _
  have hday : (t.secondOfDay.toNat : Int) = t.second % 86400 := by
    rw [secondOfDay]
    omega
  have hfraction : t.shownFraction = t.fraction % 1000000000 := rfl
  have hlt := t.fraction_lt
  have hleap : t.isLeap = true ↔ 1000000000 ≤ t.fraction := by simp [isLeap]
  have hparts := t.shown.ofParts?_eq
  generalize t.secondOfDay.toNat = s at hday
  have hhour : s / 3600 < 24 := by omega
  have hminute : s / 60 % 60 < 60 := Nat.mod_lt _ (by decide)
  have hsecond : s % 60 + (if t.isLeap then 1 else 0) ≤ 60 := by split <;> omega
  -- a second numbered 60 is a leap second at the end of its minute, and no other one is
  have hshown : t.shown.second = t.second / 86400 * 86400 +
        (s / 3600 * 3600 + s / 60 % 60 * 60 +
          if s % 60 + (if t.isLeap then 1 else 0) = 60 then 59
          else s % 60 + if t.isLeap then 1 else 0 : Nat) ∧
      t.shown.fraction = t.shownFraction +
        if s % 60 + (if t.isLeap then 1 else 0) = 60 then 1000000000 else 0 := by
    rw [hfraction]
    by_cases hfull : t.isLeap = true
    · have hlarge := hleap.mp hfull
      rw [if_pos hfull]
      by_cases hlast : t.second % 60 = 59
      · rw [shown_eq_iff.mpr fun _ => hlast, if_pos (by omega), if_pos (by omega)]
        omega
      · have hnext : t.shown.second = t.second + 1 ∧ t.shown.fraction = t.fraction - 1000000000 := by
          simp [shown, hlarge, hlast]
        rw [hnext.1, hnext.2, if_neg (by omega), if_neg (by omega)]
        omega
    · have hnot : ¬1000000000 ≤ t.fraction := fun h => hfull (hleap.mpr h)
      rw [shown_eq_iff.mpr fun h => absurd h hfull, if_neg hfull, if_neg (by omega),
        if_neg (by omega)]
      omega
  simp only [ofFields?, hexists, hhour, hminute, hsecond, hdays, ← hshown.1, ← hshown.2, hparts,
    Int.sub_zero, decide_true, Bool.and_self, guard, if_true, Option.bind_eq_bind, pure,
    Option.bind_some]
  rfl

/-! ## Reading what is written -/

/-- A text is read field by field. -/
theorem read?_of_fields {text : String} {y shift : Int} {m d hour minute second fraction : Nat}
    {afterYear afterMonth atMonth atDay atTime afterHour atMinute afterMinute atSecond atFraction
      atOffset : List Char}
    (hyear : year text.toList = some (y, afterYear))
    (hmonth : separator '-' afterYear = some atMonth)
    (hmonth' : field 2 atMonth = some (m, afterMonth))
    (hday : separator '-' afterMonth = some atDay) (hday' : field 2 atDay = some (d, 'T' :: atTime))
    (hhour : field 2 atTime = some (hour, afterHour))
    (hminute : separator ':' afterHour = some atMinute)
    (hminute' : field 2 atMinute = some (minute, afterMinute))
    (hsecond : separator ':' afterMinute = some atSecond)
    (hsecond' : field 2 atSecond = some (second, atFraction))
    (hfraction : fractionDigits atFraction = some (fraction, atOffset))
    (hoffset : offset atOffset = some (shift, [])) :
    read? text = ofFields? ⟨y, m, d⟩ hour minute second fraction shift := by
  have hletter : separatesTime 'T' = true := by decide
  have hend : (trimStart []).isEmpty = true := by decide
  unfold read?
  simp only [hyear, hmonth, hmonth', hday, hday', hletter, hhour, hminute, hminute', hsecond,
    hsecond', hfraction, hoffset, hend, guard, if_true, bind, Option.bind, pure]

/-- **An instant is read back from its text**, with anything behind it that is an offset of zero. -/
theorem read?_localText (t : Instant) (hc : c.isDigit = false) (hpoint : c ≠ '.')
    (hoffset : offset (c :: rest) = some (0, [])) :
    read? (String.ofList (t.localText ++ c :: rest)) = some t.shown := by
  obtain ⟨hmonth, hday⟩ := Date.ofDays_lt (t.second / 86400)
  have hseconds : t.secondOfDay.toNat < 86400 := by
    rw [secondOfDay]
    omega
  have hsecond : t.secondOfDay.toNat % 60 + (if t.isLeap then 1 else 0) < 100 := by split <;> omega
  have hminus (rest : List Char) : separator '-' ('-' :: rest) = some rest :=
    separator_cons (by decide) rest
  have hcolon (rest : List Char) : separator ':' (':' :: rest) = some rest :=
    separator_cons (by decide) rest
  have htext : (String.ofList (t.localText ++ c :: rest)).toList = yearText t.date.year ++ '-' ::
      (padded 2 t.date.month ++ '-' :: (padded 2 t.date.day ++ 'T' ::
        (padded 2 (t.secondOfDay.toNat / 3600) ++ ':' ::
          (padded 2 (t.secondOfDay.toNat / 60 % 60) ++ ':' ::
            (padded 2 (t.secondOfDay.toNat % 60 + if t.isLeap then 1 else 0) ++
              (t.fractionText ++ c :: rest)))))) := by
    simp only [String.toList_ofList, localText, dateText, timeText, List.append_assoc,
      List.cons_append]
  rw [← ofFields?_written t]
  exact read?_of_fields ((congrArg year htext).trans (year_yearText _ _)) (hminus _)
    (field_padded hmonth _) (hminus _) (field_padded hday _) (field_padded (by omega) _) (hcolon _)
    (field_padded (by omega) _) (hcolon _) (field_padded hsecond _)
    (fractionDigits_fractionText t hc hpoint rest) hoffset

/-- **A header is read back** as the instant that it shows. -/
theorem read?_headerText (t : Instant) : read? t.headerText = some t.shown :=
  read?_localText t (by decide) (by decide) (by decide)

/-! ## Where instants come from -/

theorem second_of_ofParts? {second : Int} {fraction : Nat} (h : ofParts? second fraction = some t) :
    t.second = second ∧ t.fraction = fraction := by
  unfold ofParts? at h
  split at h
  · obtain rfl := Option.some.inj h
    exact ⟨rfl, rfl⟩
  · cases h

/-- A count of nanoseconds has no leap seconds. -/
theorem onClock_of_ofNanoseconds? {k : Int} (h : ofNanoseconds? k = some t) : t.OnClock := by
  have hfraction := (second_of_ofParts? h).2
  refine onClock_of_not_isLeap ?_
  simp only [isLeap, decide_eq_false_iff_not]
  omega

/-- Moving does not leave what a clock can show. -/
theorem onClock_add (h : t.OnClock) (d : Span) : (t.add d).OnClock := by
  unfold add
  split
  · next hleap =>
    cases hmoved : ofParts? t.second (t.fraction + d.subsecond) with
    | none => exact onClock_of_not_isLeap (by decide)
    | some u =>
      intro _
      rw [Option.getD_some, (second_of_ofParts? hmoved).1]
      exact h hleap.1
  · simp only
    split
    all_goals
      cases hmoved : ofNanoseconds? _ with
      | none => exact onClock_of_not_isLeap (by decide)
      | some u => exact onClock_of_ofNanoseconds? hmoved

theorem onClock_sub (h : t.OnClock) (d : Span) : (t.sub d).OnClock := by
  unfold sub
  split
  · next hleap =>
    cases hmoved : ofParts? t.second (t.fraction - d.subsecond) with
    | none => exact onClock_of_not_isLeap (by decide)
    | some u =>
      intro _
      rw [Option.getD_some, (second_of_ofParts? hmoved).1]
      exact h hleap.1
  · cases hmoved : ofNanoseconds? (t.nanoseconds - d.nanoseconds) with
    | none => exact onClock_of_not_isLeap (by decide)
    | some u => exact onClock_of_ofNanoseconds? hmoved

/-- At most so many digits stay below the power of ten. -/
theorem number_lt {s after : List Char} (h : number width s = some (n, after)) :
    n < 10 ^ (s.length - after.length) ∧ s.length - after.length ≤ width := by
  unfold number at h
  simp only at h
  split at h
  · cases h
  · obtain ⟨hvalue, hafter⟩ := Prod.mk.inj (Option.some.inj h)
    generalize hdigits : (s.take width).takeWhile Char.isDigit = ds at hvalue hafter
    have hdigital : Digital ds := by
      intro c hc
      exact List.mem_takeWhile_imp (hdigits ▸ hc)
    have hlength : ds.length ≤ width ∧ ds.length ≤ s.length := by
      have hle := (List.takeWhile_prefix (l := s.take width) Char.isDigit).length_le
      rw [hdigits, List.length_take] at hle
      omega
    have hlt := ofDigitChars_lt hdigital 0
    rw [Nat.zero_add, Nat.one_mul, ← foldl_digits, hvalue] at hlt
    rw [← hafter, List.length_drop, Nat.sub_sub_self hlength.2]
    exact ⟨hlt, hlength.1⟩

/-- A fraction that is read stays below a second. -/
theorem fractionDigits_lt {s after : List Char} (h : fractionDigits s = some (n, after)) :
    n < 1000000000 := by
  unfold fractionDigits at h
  split at h
  · next rest =>
    cases hnumber : number 9 rest with
    | none => simp [hnumber] at h
    | some r =>
      obtain ⟨k, behind⟩ := r
      obtain ⟨hlt, hwidth⟩ := number_lt hnumber
      simp only [hnumber, Option.bind_eq_bind, Option.bind_some, Option.some.injEq,
        Prod.mk.injEq] at h
      generalize rest.length - behind.length = count at hlt hwidth h
      rw [← h.1]
      calc k * 10 ^ (9 - count)
          < 10 ^ count * 10 ^ (9 - count) := Nat.mul_lt_mul_of_pos_right hlt (by positivity)
        _ = 1000000000 := by rw [← Nat.pow_add, Nat.add_sub_cancel' hwidth]
  · obtain ⟨rfl, -⟩ := Prod.mk.inj (Option.some.inj h)
    decide

/-- Offsets are whole minutes. -/
theorem offset_mod {s after : List Char} {shift : Int} (h : offset s = some (shift, after)) :
    shift % 60 = 0 := by
  have hminutes (sign hours minutes : Int) : sign * (hours * 3600 + minutes * 60) % 60 = 0 := by
    have hsixty : hours * 3600 + minutes * 60 = (hours * 60 + minutes) * 60 := by omega
    rw [hsixty, ← Int.mul_assoc]
    exact Int.mul_emod_left ..
  have hamount (sign : Int) (s : List Char) (r : Int × List Char)
      (hr : (twoDigits s).bind (fun p => (twoDigits (p.2.dropWhile fun c => c == ':' || isBlank c)).bind
        fun q => if q.1 < 60 then some (sign * (p.1 * 3600 + q.1 * 60), q.2) else none) = some r) :
      r.1 % 60 = 0 := by
    obtain ⟨p, -, hp⟩ := Option.bind_eq_some_iff.mp hr
    obtain ⟨q, -, hq⟩ := Option.bind_eq_some_iff.mp hp
    split at hq
    · obtain rfl := Option.some.inj hq
      exact hminutes sign p.1 q.1
    · cases hq
  unfold offset at h
  simp only at h
  split at h
  · obtain ⟨rfl, -⟩ := Prod.mk.inj (Option.some.inj h)
    rfl
  · obtain ⟨rfl, -⟩ := Prod.mk.inj (Option.some.inj h)
    rfl
  · exact hamount _ _ _ h
  · exact hamount _ _ _ h
  · exact hamount _ _ _ h
  · split at h
    · obtain ⟨rfl, -⟩ := Prod.mk.inj (Option.some.inj h)
      rfl
    · cases h
  · cases h

/-- Fields with a fraction below a second and an offset of whole minutes can be shown by a clock. -/
theorem onClock_of_ofFields? {d : Date} {hour minute second fraction : Nat} {shift : Int}
    (h : ofFields? d hour minute second fraction shift = some t) (hfraction : fraction < 1000000000)
    (hshift : shift % 60 = 0) : t.OnClock := by
  unfold ofFields? at h
  simp only [Option.bind_eq_bind, Option.bind_eq_some_iff] at h
  obtain ⟨-, -, -, -, -, -, hparts⟩ := h
  obtain ⟨hsecond, hleap⟩ := second_of_ofParts? hparts
  intro hfull
  simp only [isLeap, decide_eq_true_eq] at hfull
  split at hleap
  · next hsixty =>
    rw [hsecond, if_pos hsixty]
    omega
  · omega

/-- What is read from a text is made of fields, with a fraction below a second and an offset of
whole minutes. -/
theorem exists_ofFields?_of_read? {text : String} (h : read? text = some t) :
    ∃ d hour minute second fraction shift, fraction < 1000000000 ∧ shift % 60 = 0 ∧
      ofFields? d hour minute second fraction shift = some t := by
  unfold read? at h
  obtain ⟨y, -, h⟩ := Option.bind_eq_some_iff.mp h
  obtain ⟨atMonth, -, h⟩ := Option.bind_eq_some_iff.mp h
  obtain ⟨m, -, h⟩ := Option.bind_eq_some_iff.mp h
  obtain ⟨atDay, -, h⟩ := Option.bind_eq_some_iff.mp h
  obtain ⟨d, -, h⟩ := Option.bind_eq_some_iff.mp h
  -- nothing is read behind the date unless a time of day follows
  obtain ⟨atTime, h⟩ : ∃ atTime, (do
      let hour ← field 2 atTime
      let s ← separator ':' hour.2
      let minute ← field 2 s
      let s ← separator ':' minute.2
      let second ← field 2 s
      let fraction ← fractionDigits second.2
      let shift ← offset fraction.2
      guard (trimStart shift.2).isEmpty
      ofFields? ⟨y.1, m.1, d.1⟩ hour.1 minute.1 second.1 fraction.1 shift.1) = some t := by
    simp only at h
    split at h
    · split at h
      · exact ⟨_, h⟩
      · cases h
    · cases h
  obtain ⟨hour, -, h⟩ := Option.bind_eq_some_iff.mp h
  obtain ⟨atMinute, -, h⟩ := Option.bind_eq_some_iff.mp h
  obtain ⟨minute, -, h⟩ := Option.bind_eq_some_iff.mp h
  obtain ⟨atSecond, -, h⟩ := Option.bind_eq_some_iff.mp h
  obtain ⟨second, -, h⟩ := Option.bind_eq_some_iff.mp h
  obtain ⟨fraction, hfraction, h⟩ := Option.bind_eq_some_iff.mp h
  obtain ⟨shift, hshift, h⟩ := Option.bind_eq_some_iff.mp h
  obtain ⟨-, -, h⟩ := Option.bind_eq_some_iff.mp h
  exact ⟨_, _, _, _, _, _, fractionDigits_lt hfraction, offset_mod hshift, h⟩

/-- **What is read from a text can be shown by a clock.** -/
theorem onClock_of_read? {text : String} (h : read? text = some t) : t.OnClock := by
  obtain ⟨d, hour, minute, second, fraction, shift, hfraction, hshift, hfields⟩ :=
    exists_ofFields?_of_read? h
  exact onClock_of_ofFields? hfields hfraction hshift

end Courier.Instant
