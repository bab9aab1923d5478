import Courier.Time.Calendar

/-!
# Days and dates

Every count of days is the count of a date that exists: `Date.toDays_ofDays` and
`Date.exists_ofDays`.

A year is found by a division that misses by at most one.  What it finds is the year whose first day
is not behind the day and whose last day is not before it (`yearOfDay_spec`), so the days that
remain are days of that year, and the months take them up one after the other (`monthAndDay_spec`).
-/

namespace Courier.Date

/-! ## Years -/

/-- The length of a year. -/
def daysInYear (leap : Bool) : Nat := if leap then 366 else 365

/-- A year begins when the one before it has ended. -/
theorem daysBeforeYear_succ (y : Int) :
    daysBeforeYear (y + 1) = daysBeforeYear y + daysInYear (isLeapYear y) := by
  have hleap : isLeapYear y = true ↔ y % 4 = 0 ∧ (y % 100 ≠ 0 ∨ y % 400 = 0) := by
    simp [isLeapYear]
  unfold daysBeforeYear daysInYear
  split
  · next h =>
    rw [hleap] at h
    omega
  · next h =>
    rw [hleap] at h
    omega

/-- **The year of a day** has begun and has not ended. -/
theorem yearOfDay_spec (n : Int) :
    daysBeforeYear (yearOfDay n) ≤ n ∧ n < daysBeforeYear (yearOfDay n + 1) := by
  have hearly : daysBeforeYear (n * 400 / 146097) ≤ n := by
    unfold daysBeforeYear
    omega
  have hlate : n < daysBeforeYear (n * 400 / 146097 + 1 + 1 + 1) := by
    unfold daysBeforeYear
    omega
  unfold yearOfDay
  simp only
  split
  · next hbefore =>
    rw [Int.add_sub_cancel]
    exact ⟨hearly, hbefore⟩
  · next hnot =>
    split
    · next hbehind => exact ⟨hbehind, hlate⟩
    · next hnot' => exact ⟨Int.not_lt.mp hnot, Int.not_le.mp hnot'⟩

/-! ## Months -/

theorem daysBeforeMonth_succ (leap : Bool) {month : Nat} (h : 1 ≤ month) :
    daysBeforeMonth leap (month + 1) = daysBeforeMonth leap month + daysInMonth leap month := by
  obtain ⟨month, rfl⟩ := Nat.exists_eq_add_one.mpr h
  rfl

/-- Twelve months make a year. -/
theorem daysBeforeMonth_thirteen (leap : Bool) : daysBeforeMonth leap 13 = daysInYear leap := by
  cases leap <;> rfl

/-- **The month of a day** is one of those that remain, and it has this day. -/
theorem monthAndDay_spec (leap : Bool) {month n fuel : Nat} (hmonth : 1 ≤ month)
    (hfuel : month + fuel = 12) (hn : daysBeforeMonth leap month + n < daysInYear leap) :
    1 ≤ (monthAndDay leap month n fuel).1 ∧ (monthAndDay leap month n fuel).1 ≤ 12 ∧
      1 ≤ (monthAndDay leap month n fuel).2 ∧
      (monthAndDay leap month n fuel).2 ≤ daysInMonth leap (monthAndDay leap month n fuel).1 ∧
      daysBeforeMonth leap (monthAndDay leap month n fuel).1 + (monthAndDay leap month n fuel).2 =
        daysBeforeMonth leap month + n + 1 := by
  have hnext := daysBeforeMonth_succ leap hmonth
  induction fuel generalizing month n with
  | zero =>
    obtain rfl : month = 12 := hfuel
    rw [daysBeforeMonth_thirteen] at hnext
    simp only [monthAndDay]
    omega
  | succ fuel ih =>
    unfold monthAndDay
    split
    · simp only
      omega
    · have hbehind : 1 ≤ month + 1 := Nat.le_add_left ..
      have hrest := ih hbehind (n := n - daysInMonth leap month) (by omega) (by omega)
        (daysBeforeMonth_succ leap hbehind)
      omega

/-! ## Dates -/

/-- The days that remain of a count when its year has begun. -/
theorem monthAndDay_ofDays (days : Int) :
    ∃ m d : Nat, ofDays days = ⟨yearOfDay (days + epochDays), m, d⟩ ∧
      1 ≤ m ∧ m ≤ 12 ∧ 1 ≤ d ∧ d ≤ daysInMonth (isLeapYear (yearOfDay (days + epochDays))) m ∧
      (daysBeforeMonth (isLeapYear (yearOfDay (days + epochDays))) m + d : Int) =
        days + epochDays - daysBeforeYear (yearOfDay (days + epochDays)) + 1 := by
  obtain ⟨hbegun, hnot⟩ := yearOfDay_spec (days + epochDays)
  rw [daysBeforeYear_succ] at hnot
  generalize hy : yearOfDay (days + epochDays) = y at hbegun hnot
  have hn : daysBeforeMonth (isLeapYear y) 1 + (days + epochDays - daysBeforeYear y).toNat <
      daysInYear (isLeapYear y) := by
    have hnone : daysBeforeMonth (isLeapYear y) 1 = 0 := rfl
    omega
  obtain ⟨hm, hm', hd, hd', hsum⟩ := monthAndDay_spec _ (Nat.le_refl 1) (show 1 + 11 = 12 from rfl) hn
  have hnone : daysBeforeMonth (isLeapYear y) 1 = 0 := rfl
  refine ⟨_, _, ?_, hm, hm', hd, hd', ?_⟩
  · simp only [ofDays, hy]
  · omega

/-- **Counting the date of a count gives the count.** -/
theorem toDays_ofDays (days : Int) : (ofDays days).toDays = days := by
  obtain ⟨m, d, hdate, -, -, -, -, hsum⟩ := monthAndDay_ofDays days
  rw [hdate]
  simp only [toDays]
  omega

/-- **The date of a count exists.** -/
theorem exists_ofDays (days : Int) : (ofDays days).exists_ = true := by
  obtain ⟨m, d, hdate, hm, hm', hd, hd', -⟩ := monthAndDay_ofDays days
  simp [hdate, exists_, hm, hm', hd, hd']

/-- Months and days have at most two digits. -/
theorem ofDays_lt (days : Int) : (ofDays days).month < 100 ∧ (ofDays days).day < 100 := by
  obtain ⟨m, d, hdate, -, hm, -, hd, -⟩ := monthAndDay_ofDays days
  have hlength : ∀ leap, daysInMonth leap m ≤ 31 := by
    intro leap
    unfold daysInMonth
    split
    · cases leap <;> decide
    all_goals decide
  have hmonth := hlength (isLeapYear (yearOfDay (days + epochDays)))
  rw [hdate]
  exact ⟨by simpa using Nat.lt_of_le_of_lt hm (by decide), by simp only; omega⟩

end Courier.Date
