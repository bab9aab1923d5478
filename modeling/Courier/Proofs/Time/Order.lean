import Courier.Time.Instant
import Mathlib.Order.Defs.LinearOrder

/-!
# The order of instants

Instants are ordered by their seconds and, within one second, by their fractions.  The order is
linear, and outside leap seconds it is the order of the counts of nanoseconds, so a later start
gives a later deadline.

At a leap second this fails: `exists_add_lt_add` gives two instants whose deadlines come in the
opposite order.
-/

namespace Courier

namespace Instant

variable {t u : Instant}

theorem le_iff : t ≤ u ↔
    t.second < u.second ∨ (t.second = u.second ∧ t.fraction ≤ u.fraction) := by
  show le t u = true ↔ _
  simp [le]

theorem lt_iff : t < u ↔
    t.second < u.second ∨ (t.second = u.second ∧ t.fraction < u.fraction) := by
  show lt t u = true ↔ _
  simp [lt]

end Instant

instance : LinearOrder Instant where
  le_refl t := by simp [Instant.le_iff]
  le_trans t u v := by simp only [Instant.le_iff]; omega
  lt_iff_le_not_ge t u := by simp only [Instant.le_iff, Instant.lt_iff]; omega
  le_antisymm t u := by
    obtain ⟨_, _, _, _, _⟩ := t
    obtain ⟨_, _, _, _, _⟩ := u
    simp only [Instant.le_iff, Instant.mk.injEq]
    omega
  le_total t u := by simp only [Instant.le_iff]; omega
  toDecidableLE := inferInstance
  toDecidableLT := inferInstance
  toDecidableEq := inferInstance
  min t u := if t ≤ u then t else u
  max t u := if t ≤ u then u else t
  min_def _ _ := rfl
  max_def _ _ := rfl

namespace Instant

variable {t u : Instant}

/-! ## Deadlines -/

/-- Outside leap seconds instants are ordered as their counts of nanoseconds are. -/
theorem le_iff_nanoseconds (ht : t.isLeap = false) (hu : u.isLeap = false) :
    t ≤ u ↔ t.nanoseconds ≤ u.nanoseconds := by
  simp only [isLeap, decide_eq_false_iff_not] at ht hu
  simp only [le_iff, nanoseconds]
  omega

/-- A count of nanoseconds within range is the count of an instant outside leap seconds. -/
theorem ofNanoseconds?_of_bounds {n : Int} (hlower : min.nanoseconds ≤ n)
    (hupper : n ≤ max.nanoseconds) :
    ∃ t, ofNanoseconds? n = some t ∧ t.isLeap = false ∧ t.nanoseconds = n := by
  have hmin : min.nanoseconds = -8334601228800 * 1000000000 := rfl
  have hmax : max.nanoseconds = 8210266876799 * 1000000000 + 999999999 := rfl
  have hfits : minSecond ≤ n / 1000000000 ∧ n / 1000000000 ≤ maxSecond ∧
      (n % 1000000000).toNat < 2000000000 := by
    simp only [minSecond, maxSecond]
    omega
  refine ⟨_, dif_pos hfits, ?_, ?_⟩
  · simp only [isLeap, decide_eq_false_iff_not]
    omega
  · simp only [nanoseconds]
    omega

/-- Beyond the latest instant there is none. -/
theorem ofNanoseconds?_of_lt {n : Int} (h : max.nanoseconds < n) : ofNanoseconds? n = none := by
  have hmax : max.nanoseconds = 8210266876799 * 1000000000 + 999999999 := rfl
  refine dif_neg ?_
  simp only [minSecond, maxSecond]
  omega

theorem min_nanoseconds_le (t : Instant) : min.nanoseconds ≤ t.nanoseconds := by
  have hmin : min.nanoseconds = -8334601228800 * 1000000000 := rfl
  have hlower := t.lower
  simp only [nanoseconds] at hmin ⊢
  omega

/-- **Adding is exact up to the latest instant** outside leap seconds. -/
theorem add_nanoseconds (ht : t.isLeap = false) (d : Span) :
    (t.add d).isLeap = false ∧
      (t.add d).nanoseconds = Min.min (t.nanoseconds + d.nanoseconds) max.nanoseconds := by
  have hadd : t.add d = (ofNanoseconds? (t.nanoseconds + d.nanoseconds)).getD max := by
    simp [add, ht]
  have hlower := min_nanoseconds_le t
  rw [hadd]
  by_cases hupper : t.nanoseconds + d.nanoseconds ≤ max.nanoseconds
  · obtain ⟨u, hu, hleap, hcount⟩ := ofNanoseconds?_of_bounds (by omega) hupper
    rw [hu, Option.getD_some]
    exact ⟨hleap, by omega⟩
  · rw [ofNanoseconds?_of_lt (by omega), Option.getD_none]
    exact ⟨rfl, by omega⟩

/-- **Deadlines keep the order of their starts** outside leap seconds. -/
theorem add_le_add (ht : t.isLeap = false) (hu : u.isLeap = false) (h : t ≤ u) (d : Span) :
    t.add d ≤ u.add d := by
  have hcount := (le_iff_nanoseconds ht hu).mp h
  obtain ⟨htleap, htadd⟩ := add_nanoseconds ht d
  obtain ⟨huleap, huadd⟩ := add_nanoseconds hu d
  rw [le_iff_nanoseconds htleap huleap]
  omega

/-- A deadline outside leap seconds does not lie before its start. -/
theorem le_add (ht : t.isLeap = false) (d : Span) : t ≤ t.add d := by
  have hmax : max.nanoseconds = 8210266876799 * 1000000000 + 999999999 := rfl
  have hlatest : t.nanoseconds ≤ max.nanoseconds := by
    have hupper := t.upper
    simp only [isLeap, decide_eq_false_iff_not] at ht
    simp only [nanoseconds] at hmax ⊢
    omega
  obtain ⟨hleap, hadd⟩ := add_nanoseconds ht d
  rw [le_iff_nanoseconds ht hleap]
  omega

variable {d e : Span}

/-- A short move within a leap second stays in it. -/
theorem add_of_within (hleap : t.isLeap = true)
    (hwithin : t.fraction + d.nanoseconds < 2000000000) :
    (t.add d).second = t.second ∧ (t.add d).fraction = t.fraction + d.nanoseconds := by
  have hfraction : 1000000000 ≤ t.fraction := by simpa [isLeap] using hleap
  have hseconds : d.seconds = 0 := by
    simp only [Span.seconds, Span.perSecond]
    omega
  have hsubsecond : d.subsecond = d.nanoseconds := by
    simp only [Span.subsecond, Span.perSecond]
    omega
  have hfits : minSecond ≤ t.second ∧ t.second ≤ maxSecond ∧
      t.fraction + d.nanoseconds < 2000000000 := ⟨t.lower, t.upper, hwithin⟩
  simp [add, hleap, hseconds, hsubsecond, hwithin, ofParts?, hfits]

/-- Every other move out of a leap second starts from the second before, and is exact up to the
latest instant. -/
theorem add_of_leaving (hleap : t.isLeap = true)
    (hleaving : 2000000000 ≤ t.fraction + d.nanoseconds) :
    (t.add d).isLeap = false ∧ (t.add d).nanoseconds =
      Min.min (t.nanoseconds - 1000000000 + d.nanoseconds) max.nanoseconds := by
  have hfraction : 1000000000 ≤ t.fraction := by simpa [isLeap] using hleap
  have hstay : ¬ (d.seconds = 0 ∧ t.fraction + d.subsecond < 2000000000) := by
    simp only [Span.seconds, Span.subsecond, Span.perSecond]
    omega
  have hadd : t.add d =
      (ofNanoseconds? (t.nanoseconds - 1000000000 + d.nanoseconds)).getD max := by
    simp [add, hleap, hstay]
  have hmin : min.nanoseconds = -8334601228800 * 1000000000 := rfl
  have hlower : min.nanoseconds ≤ t.nanoseconds - 1000000000 + d.nanoseconds := by
    have hsecond := t.lower
    simp only [nanoseconds] at hmin ⊢
    omega
  rw [hadd]
  by_cases hupper : t.nanoseconds - 1000000000 + d.nanoseconds ≤ max.nanoseconds
  · obtain ⟨u, hu, hnormal, hcount⟩ := ofNanoseconds?_of_bounds hlower hupper
    rw [hu, Option.getD_some]
    exact ⟨hnormal, by omega⟩
  · rw [ofNanoseconds?_of_lt (by omega), Option.getD_none]
    exact ⟨rfl, by omega⟩

/-- **A deadline lies ahead**, unless the clock has come to the latest instant. -/
theorem lt_add (hnow : t < max) (hd : 0 < d.nanoseconds) : t < t.add d := by
  have hmax : max.nanoseconds = 8210266876799 * 1000000000 + 999999999 := rfl
  have hsecond : max.second = 8210266876799 := rfl
  have hfraction : max.fraction = 999999999 := rfl
  rw [lt_iff] at hnow ⊢
  by_cases hleap : t.isLeap = true
  · have hlarge : 1000000000 ≤ t.fraction := by simpa [isLeap] using hleap
    by_cases hwithin : t.fraction + d.nanoseconds < 2000000000
    · have hadd := add_of_within hleap hwithin
      omega
    · obtain ⟨hnormal, hadd⟩ := add_of_leaving (d := d) hleap (by omega)
      simp only [isLeap, decide_eq_false_iff_not] at hnormal
      simp only [nanoseconds] at hadd hmax
      omega
  · have ht : t.isLeap = false := by simpa using hleap
    obtain ⟨hnormal, hadd⟩ := add_nanoseconds ht d
    simp only [isLeap, decide_eq_false_iff_not] at ht hnormal
    simp only [nanoseconds] at hadd hmax
    omega

/-- **A longer span gives a later deadline**, if that deadline lies ahead. -/
theorem add_le_add_of_le (hde : d.nanoseconds ≤ e.nanoseconds) (hlater : t < t.add e) :
    t.add d ≤ t.add e := by
  by_cases hleap : t.isLeap = true
  · have hlarge : 1000000000 ≤ t.fraction := by simpa [isLeap] using hleap
    by_cases hwithin : t.fraction + e.nanoseconds < 2000000000
    · have hadd := add_of_within (d := d) hleap (by omega)
      have hadd' := add_of_within hleap hwithin
      rw [le_iff]
      omega
    · obtain ⟨hnormal, hadd⟩ := add_of_leaving (d := e) hleap (by omega)
      simp only [isLeap, decide_eq_false_iff_not] at hnormal
      rw [lt_iff] at hlater
      by_cases hshort : t.fraction + d.nanoseconds < 2000000000
      · have hadd' := add_of_within hleap hshort
        rw [le_iff]
        omega
      · obtain ⟨hnormal', hadd'⟩ := add_of_leaving (d := d) hleap (by omega)
        have hnot : (t.add e).isLeap = false := by simpa [isLeap] using hnormal
        rw [le_iff_nanoseconds hnormal' hnot]
        omega
  · have ht : t.isLeap = false := by simpa using hleap
    obtain ⟨hnormal, hadd⟩ := add_nanoseconds ht d
    obtain ⟨hnormal', hadd'⟩ := add_nanoseconds ht e
    rw [le_iff_nanoseconds hnormal hnormal']
    omega

/-- Just before a leap second a deadline may lie behind one that is counted from the leap second
itself, for a deadline within the leap second stays in it. -/
theorem exists_add_lt_add : ∃ (t u : Instant) (d : Span), t < u ∧ u.add d < t.add d :=
  ⟨⟨0, 900000000, by decide, by decide, by decide⟩,
    ⟨0, 1000000000, by decide, by decide, by decide⟩, ⟨500000000⟩, by decide, by decide⟩

end Instant
end Courier
