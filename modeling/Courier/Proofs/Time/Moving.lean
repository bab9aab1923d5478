import Courier.Proofs.Time.Order
import Mathlib.Algebra.Group.Nat.Defs

/-!
# Moving along time

Three ranges meet where an instant is moved by a span.  A span may have `2 ^ 64` seconds, a calendar
moves by at most `2 ^ 63 - 1` milliseconds at once, and the instants end long before that.  So a
span that is cut off at the longest move leads beyond the ends anyway (`add_strided`,
`sub_strided`), and the difference of two instants is always a move (`natAbs_difference_le`).

Outside leap seconds everything is said by counts of nanoseconds: `add_nanoseconds`,
`sub_nanoseconds` and `since_nanoseconds` give the count of each result, and instants with the same
count are the same.  What passes from one instant to a later one, leap seconds included, is
`elapsed`: what lies before `u.sub d`, or behind `t.add d`, is further away than `d`.

Main statement: `Instant.moves_exactly`.
-/

namespace Courier

namespace Span

/-- The longest move of a calendar: as many milliseconds as 63 bits can count. -/
def stride : Nat := (2 ^ 63 - 1) * perMillisecond

/-- A span as a calendar can move by it. -/
def strided (d : Span) : Span := if d.nanoseconds ≤ stride then d else ⟨stride⟩

end Span

namespace Instant

variable {t u : Instant} {d e : Span}

/-! ## Counts of nanoseconds -/

/-- Outside leap seconds no instant lies behind the latest one. -/
theorem nanoseconds_le_max (ht : t.isLeap = false) : t.nanoseconds ≤ max.nanoseconds := by
  have hmax : max.nanoseconds = 8210266876799 * 1000000000 + 999999999 := rfl
  have hupper := t.upper
  simp only [isLeap, decide_eq_false_iff_not] at ht
  simp only [nanoseconds] at hmax ⊢
  omega

/-- Even in a leap second an instant does not lie a second behind the latest one. -/
theorem nanoseconds_le (t : Instant) : t.nanoseconds ≤ max.nanoseconds + 1000000000 := by
  have hmax : max.nanoseconds = 8210266876799 * 1000000000 + 999999999 := rfl
  have hupper := t.upper
  have hlt := t.fraction_lt
  simp only [nanoseconds] at hmax ⊢
  omega

/-- Before the earliest instant there is none. -/
theorem ofNanoseconds?_of_lt_min {n : Int} (h : n < min.nanoseconds) : ofNanoseconds? n = none := by
  have hmin : min.nanoseconds = -8334601228800 * 1000000000 := rfl
  refine dif_neg ?_
  simp only [minSecond, maxSecond]
  omega

/-- Outside leap seconds an instant is its count of nanoseconds. -/
theorem eq_of_nanoseconds_eq (ht : t.isLeap = false) (hu : u.isLeap = false)
    (h : t.nanoseconds = u.nanoseconds) : t = u :=
  le_antisymm ((le_iff_nanoseconds ht hu).mpr (Int.le_of_eq h))
    ((le_iff_nanoseconds hu ht).mpr (Int.le_of_eq h.symm))

/-- A count that does not lie behind the latest instant is the count of an instant, down to the
earliest one. -/
theorem nanoseconds_getD_min {n : Int} (hupper : n ≤ max.nanoseconds) :
    ((ofNanoseconds? n).getD min).isLeap = false ∧
      ((ofNanoseconds? n).getD min).nanoseconds = Max.max n min.nanoseconds := by
  by_cases hlower : min.nanoseconds ≤ n
  · obtain ⟨u, hu, hleap, hcount⟩ := ofNanoseconds?_of_bounds hlower hupper
    rw [hu, Option.getD_some]
    exact ⟨hleap, by omega⟩
  · rw [ofNanoseconds?_of_lt_min (by omega), Option.getD_none]
    exact ⟨rfl, by omega⟩

/-- **Going back is exact down to the earliest instant** outside leap seconds. -/
theorem sub_nanoseconds (ht : t.isLeap = false) (d : Span) :
    (t.sub d).isLeap = false ∧
      (t.sub d).nanoseconds = Max.max (t.nanoseconds - d.nanoseconds) min.nanoseconds := by
  have hsub : t.sub d = (ofNanoseconds? (t.nanoseconds - d.nanoseconds)).getD min := by
    simp [sub, ht]
  have hupper := nanoseconds_le_max ht
  rw [hsub]
  exact nanoseconds_getD_min (by omega)

/-- Going back by less than a second stays within a leap second, or leads into the second before. -/
theorem sub_of_within (hleap : t.isLeap = true) (hshort : d.nanoseconds < 1000000000) :
    (t.sub d).second = t.second ∧ (t.sub d).fraction = t.fraction - d.nanoseconds := by
  have hseconds : d.seconds = 0 := by
    simp only [Span.seconds, Span.perSecond]
    omega
  have hsubsecond : d.subsecond = d.nanoseconds := by
    simp only [Span.subsecond, Span.perSecond]
    omega
  have hlt := t.fraction_lt
  have hfits : minSecond ≤ t.second ∧ t.second ≤ maxSecond ∧
      t.fraction - d.nanoseconds < 2000000000 := ⟨t.lower, t.upper, by omega⟩
  simp [sub, hleap, hseconds, hsubsecond, ofParts?, hfits]

/-- Going back by a second or more leads out of a leap second, which is counted. -/
theorem sub_of_second_le (t : Instant) (hlong : 1000000000 ≤ d.nanoseconds) :
    (t.sub d).isLeap = false ∧
      (t.sub d).nanoseconds = Max.max (t.nanoseconds - d.nanoseconds) min.nanoseconds := by
  have hseconds : d.seconds ≠ 0 := by
    simp only [Span.seconds, Span.perSecond]
    omega
  have hsub : t.sub d = (ofNanoseconds? (t.nanoseconds - d.nanoseconds)).getD min := by
    simp [sub, hseconds]
  have hupper := nanoseconds_le t
  rw [hsub]
  exact nanoseconds_getD_min (by omega)

/-- **The span between two instants** is the difference of their counts, if it leads forward. -/
theorem since_nanoseconds (ht : t.isLeap = false) (hu : u.isLeap = false) :
    (t.since u).nanoseconds = (t.nanoseconds - u.nanoseconds).toNat := by
  have hdifference : t.difference u = t.nanoseconds - u.nanoseconds := by
    simp only [difference, ht, hu, Bool.false_eq_true, and_false, if_false, nanoseconds]
    omega
  rw [since, hdifference]

/-! ## The longest move -/

/-- A span is cut off only where it leads beyond all instants. -/
theorem strided_eq_or (d : Span) : d.strided = d ∨
    max.nanoseconds + 1000000000 - min.nanoseconds < d.strided.nanoseconds ∧
      d.strided.nanoseconds ≤ d.nanoseconds := by
  have hmin : min.nanoseconds = -8334601228800 * 1000000000 := rfl
  have hmax : max.nanoseconds = 8210266876799 * 1000000000 + 999999999 := rfl
  have hstride : Span.stride = (2 ^ 63 - 1) * 1000000 := rfl
  unfold Span.strided
  split
  · exact .inl rfl
  · exact .inr ⟨by simp only; omega, by simp only; omega⟩

/-- So long a span leads to the latest instant, whatever it starts from. -/
theorem add_of_long (t : Instant)
    (hlong : max.nanoseconds + 1000000000 - min.nanoseconds < d.nanoseconds) : t.add d = max := by
  have hmin : min.nanoseconds = -8334601228800 * 1000000000 := rfl
  have hmax : max.nanoseconds = 8210266876799 * 1000000000 + 999999999 := rfl
  have hlower := min_nanoseconds_le t
  have hseconds : d.seconds ≠ 0 := by
    simp only [Span.seconds, Span.perSecond]
    omega
  simp only [add, hseconds, false_and, and_false, if_false]
  split
  all_goals
    rw [ofNanoseconds?_of_lt (by omega), Option.getD_none]

/-- And back to the earliest one. -/
theorem sub_of_long (t : Instant)
    (hlong : max.nanoseconds + 1000000000 - min.nanoseconds < d.nanoseconds) : t.sub d = min := by
  have hmin : min.nanoseconds = -8334601228800 * 1000000000 := rfl
  have hmax : max.nanoseconds = 8210266876799 * 1000000000 + 999999999 := rfl
  have hupper := nanoseconds_le t
  have hseconds : d.seconds ≠ 0 := by
    simp only [Span.seconds, Span.perSecond]
    omega
  simp only [sub, hseconds, and_false, if_false]
  rw [ofNanoseconds?_of_lt_min (by omega), Option.getD_none]

/-- **Cutting a span off at the longest move makes no difference.** -/
theorem add_strided (t : Instant) (d : Span) : t.add d.strided = t.add d := by
  rcases strided_eq_or d with h | ⟨hlong, hle⟩
  · rw [h]
  · rw [add_of_long t hlong, add_of_long t (by omega)]

theorem sub_strided (t : Instant) (d : Span) : t.sub d.strided = t.sub d := by
  rcases strided_eq_or d with h | ⟨hlong, hle⟩
  · rw [h]
  · rw [sub_of_long t hlong, sub_of_long t (by omega)]

/-- **The difference of any two instants is a move**, in leap seconds as well. -/
theorem natAbs_difference_le (t u : Instant) : (t.difference u).natAbs ≤ Span.stride := by
  have hstride : Span.stride = (2 ^ 63 - 1) * 1000000 := rfl
  have htlower := t.lower
  have htupper := t.upper
  have htfraction := t.fraction_lt
  have hulower := u.lower
  have huupper := u.upper
  have hufraction := u.fraction_lt
  unfold difference
  simp only
  split
  · omega
  split <;> omega

/-! ## Time that passes -/

/-- The nanoseconds that pass from `t` to `u`; a leap second that `t` lies in comes to its end
first. -/
def elapsed (t u : Instant) : Int :=
  if t.isLeap = true ∧ t.second < u.second then u.nanoseconds - t.nanoseconds + 1000000000
  else u.nanoseconds - t.nanoseconds

/-- **What lies before the start of a span is further away than the span is long**, in leap seconds
as well. -/
theorem lt_elapsed_of_lt_sub (h : t < u.sub d) : (d.nanoseconds : Int) < t.elapsed u := by
  have hmin : min.nanoseconds = -8334601228800 * 1000000000 := rfl
  have hlower := t.lower
  have htfraction := t.fraction_lt
  have hufraction := u.fraction_lt
  rw [lt_iff] at h
  by_cases hwithin : u.isLeap = true ∧ d.nanoseconds < 1000000000
  · obtain ⟨hsecond, hsub⟩ := sub_of_within hwithin.1 hwithin.2
    have hlarge : 1000000000 ≤ u.fraction := by simpa [isLeap] using hwithin.1
    simp only [elapsed, isLeap, decide_eq_true_eq, nanoseconds]
    split <;> omega
  · obtain ⟨hleap, hsub⟩ : (u.sub d).isLeap = false ∧
        (u.sub d).nanoseconds = Max.max (u.nanoseconds - d.nanoseconds) min.nanoseconds := by
      cases hu : u.isLeap with
      | false => exact sub_nanoseconds hu d
      | true => exact sub_of_second_le u (Nat.le_of_not_lt fun hshort => hwithin ⟨hu, hshort⟩)
    simp only [isLeap, decide_eq_true_eq] at hwithin
    simp only [isLeap, decide_eq_false_iff_not] at hleap
    simp only [nanoseconds] at hsub hmin
    simp only [elapsed, isLeap, decide_eq_true_eq, nanoseconds]
    split <;> omega

/-- **What lies behind the end of a span is further away than the span is long**, in leap seconds as
well, unless it lies behind the latest instant, where spans are cut off. -/
theorem lt_elapsed_of_add_lt (h : t.add d < u) (hu : u ≤ max) :
    (d.nanoseconds : Int) < t.elapsed u := by
  have hmax : max.nanoseconds = 8210266876799 * 1000000000 + 999999999 := rfl
  have hsecond : max.second = 8210266876799 := rfl
  have hfraction : max.fraction = 999999999 := rfl
  rw [lt_iff] at h
  rw [le_iff] at hu
  by_cases hleap : t.isLeap = true
  · have hlarge : 1000000000 ≤ t.fraction := by simpa [isLeap] using hleap
    by_cases hwithin : t.fraction + d.nanoseconds < 2000000000
    · obtain ⟨hadd, hadd'⟩ := add_of_within hleap hwithin
      simp only [elapsed, hleap, true_and, nanoseconds]
      split <;> omega
    · obtain ⟨hnormal, hadd⟩ := add_of_leaving (d := d) hleap (by omega)
      simp only [isLeap, decide_eq_false_iff_not] at hnormal
      simp only [nanoseconds] at hadd hmax
      simp only [elapsed, hleap, true_and, nanoseconds]
      split <;> omega
  · have ht : t.isLeap = false := by simpa using hleap
    obtain ⟨hnormal, hadd⟩ := add_nanoseconds ht d
    simp only [isLeap, decide_eq_false_iff_not] at hnormal
    simp only [nanoseconds] at hadd hmax
    simp only [elapsed, ht, Bool.false_eq_true, false_and, if_false, nanoseconds]
    omega

/-! ## Order -/

/-- Going back keeps the order. -/
theorem sub_le_sub (ht : t.isLeap = false) (hu : u.isLeap = false) (h : t ≤ u) (d : Span) :
    t.sub d ≤ u.sub d := by
  have hcount := (le_iff_nanoseconds ht hu).mp h
  obtain ⟨htleap, htsub⟩ := sub_nanoseconds ht d
  obtain ⟨huleap, husub⟩ := sub_nanoseconds hu d
  rw [le_iff_nanoseconds htleap huleap]
  omega

/-- Up to the latest instant a deadline does not lie before its start, and not behind the latest
instant either. -/
theorem le_add_and_add_le_max (h : t ≤ max) (d : Span) : t ≤ t.add d ∧ t.add d ≤ max := by
  have hsecond : max.second = 8210266876799 := rfl
  have hfraction : max.fraction = 999999999 := rfl
  have hmax : max.nanoseconds = 8210266876799 * 1000000000 + 999999999 := rfl
  cases hleap : t.isLeap with
  | false =>
    obtain ⟨hnormal, hadd⟩ := add_nanoseconds hleap d
    refine ⟨le_add hleap d, ?_⟩
    rw [le_iff_nanoseconds hnormal rfl]
    omega
  | true =>
    have hlarge : 1000000000 ≤ t.fraction := by simpa [isLeap] using hleap
    simp only [le_iff] at h ⊢
    by_cases hwithin : t.fraction + d.nanoseconds < 2000000000
    · obtain ⟨hadd, hadd'⟩ := add_of_within hleap hwithin
      omega
    · obtain ⟨hnormal, hadd⟩ := add_of_leaving (d := d) hleap (by omega)
      simp only [isLeap, decide_eq_false_iff_not] at hnormal
      simp only [nanoseconds] at hadd hmax
      omega

/-- **Behind the latest instant a deadline may lie before its start**, for there it lies in the same
leap second or is the latest instant. -/
theorem max_le_add (h : max < t) (d : Span) : max ≤ t.add d := by
  have hsecond : max.second = 8210266876799 := rfl
  have hfraction : max.fraction = 999999999 := rfl
  have hmax : max.nanoseconds = 8210266876799 * 1000000000 + 999999999 := rfl
  have hupper := t.upper
  rw [lt_iff] at h
  have hlarge : 1000000000 ≤ t.fraction := by omega
  have hleap : t.isLeap = true := by simpa [isLeap] using hlarge
  rw [le_iff]
  by_cases hwithin : t.fraction + d.nanoseconds < 2000000000
  · obtain ⟨hadd, hadd'⟩ := add_of_within hleap hwithin
    omega
  · obtain ⟨hnormal, hadd⟩ := add_of_leaving (d := d) hleap (by omega)
    simp only [isLeap, decide_eq_false_iff_not] at hnormal
    simp only [nanoseconds] at hadd hmax
    omega

/-- A longer span leads further in both directions. -/
theorem add_and_sub_of_le (ht : t.isLeap = false) (h : d.nanoseconds ≤ e.nanoseconds) :
    t.add d ≤ t.add e ∧ t.sub e ≤ t.sub d := by
  obtain ⟨hdleap, hdadd⟩ := add_nanoseconds ht d
  obtain ⟨heleap, headd⟩ := add_nanoseconds ht e
  obtain ⟨hdleap', hdsub⟩ := sub_nanoseconds ht d
  obtain ⟨heleap', hesub⟩ := sub_nanoseconds ht e
  rw [le_iff_nanoseconds hdleap heleap, le_iff_nanoseconds heleap' hdleap']
  omega

/-- A move that does not reach the end can be measured and taken back. -/
theorem since_add_and_sub_add (ht : t.isLeap = false)
    (hwithin : t.nanoseconds + d.nanoseconds ≤ max.nanoseconds) :
    (t.add d).since t = d ∧ (t.add d).sub d = t := by
  obtain ⟨hleap, hadd⟩ := add_nanoseconds ht d
  have hsince := since_nanoseconds hleap ht
  obtain ⟨hleap', hsub⟩ := sub_nanoseconds hleap d
  have hlower := min_nanoseconds_le t
  constructor
  · have hcount : ((t.add d).since t).nanoseconds = d.nanoseconds := by omega
    exact congrArg Span.mk hcount
  · exact eq_of_nanoseconds_eq hleap' ht (by omega)

/-- **Moving along time is exact and stops at its ends.**  Outside leap seconds an instant that is
moved forward comes to the sum or the latest instant, whichever is earlier, and one that is moved
back to the difference or the earliest instant, whichever is later; cutting the span off at the
longest move of a calendar does not change that.  Both follow the order of the instants, and of the
spans in their direction.  A move that does not reach the end is measured as its span, and going
back by it returns.  The span between two instants is their difference, or nothing if it leads back,
and the difference of any two instants stays within the longest move. -/
theorem moves_exactly (ht : t.isLeap = false) (hu : u.isLeap = false) (d e : Span) :
    ((t.add d).isLeap = false ∧
      (t.add d).nanoseconds = Min.min (t.nanoseconds + d.nanoseconds) max.nanoseconds) ∧
    ((t.sub d).isLeap = false ∧
      (t.sub d).nanoseconds = Max.max (t.nanoseconds - d.nanoseconds) min.nanoseconds) ∧
    (t.add d.strided = t.add d ∧ t.sub d.strided = t.sub d) ∧
    (t ≤ u → t.add d ≤ u.add d ∧ t.sub d ≤ u.sub d) ∧
    (d ≤ e → t.add d ≤ t.add e ∧ t.sub e ≤ t.sub d) ∧
    (t.nanoseconds + d.nanoseconds ≤ max.nanoseconds →
      (t.add d).since t = d ∧ (t.add d).sub d = t) ∧
    (u ≤ t → ((t.since u).nanoseconds : Int) = t.nanoseconds - u.nanoseconds) ∧
    (t < u → t.since u = .zero) ∧
    ∀ v w : Instant, (v.difference w).natAbs ≤ Span.stride := by
  have hsince := since_nanoseconds ht hu
  have horder := le_iff_nanoseconds hu ht
  refine ⟨add_nanoseconds ht d, sub_nanoseconds ht d, ⟨add_strided t d, sub_strided t d⟩, ?_, ?_,
    since_add_and_sub_add ht, ?_, ?_, natAbs_difference_le⟩
  · exact fun h => ⟨add_le_add ht hu h d, sub_le_sub ht hu h d⟩
  · exact fun h => add_and_sub_of_le ht h
  · intro h
    have hcount := horder.mp h
    omega
  · intro h
    have hcount : ¬u.nanoseconds ≤ t.nanoseconds := fun hle =>
      absurd (horder.mpr hle) (not_le.mpr h)
    have hnone : (t.since u).nanoseconds = 0 := by omega
    exact congrArg Span.mk hnone

/-- The last nanosecond before the start of 1970. -/
def eve : Instant := epoch.sub ⟨1⟩

/-- From the last nanosecond of 1969 the longest span leads to both ends of time, and a nanosecond
leads to 1970 and back. -/
theorem moves_exactly_eve :
    eve.isLeap = false ∧ eve.add (.ofSeconds (2 ^ 64 - 1) 999999999) = max ∧
    eve.sub (.ofSeconds (2 ^ 64 - 1) 999999999) = min ∧
    (eve.add ⟨1⟩).nanoseconds = 0 ∧ (eve.add ⟨1⟩).since eve = ⟨1⟩ ∧ (eve.add ⟨1⟩).sub ⟨1⟩ = eve ∧
    eve.since epoch = .zero := by
  have heve : eve.isLeap = false := by decide
  have hepoch : epoch.isLeap = false := by decide
  obtain ⟨⟨hleap, hadd⟩, ⟨hleap', hsub⟩, -⟩ :=
    moves_exactly heve hepoch (.ofSeconds (2 ^ 64 - 1) 999999999) ⟨0⟩
  obtain ⟨⟨-, hone⟩, -, -, -, -, hback, -, hnone, -⟩ := moves_exactly heve hepoch ⟨1⟩ ⟨0⟩
  obtain ⟨hsince, hreturn⟩ := hback (by decide)
  exact ⟨heve, eq_of_nanoseconds_eq hleap (by decide) (hadd.trans (by decide)),
    eq_of_nanoseconds_eq hleap' (by decide) (hsub.trans (by decide)), hone.trans (by decide),
    hsince, hreturn, hnone (by decide)⟩

end Instant
end Courier
