import RequestGuard.Calendar.Day

/-!
# Day numbers and dates

`number` undoes `ofNumber`: the date of a day number is one that the calendar has, and it has that
number.

Both count in years of an era that begin on 1 March. The year that a day of an era lies in is found
by one division of `leapless`, the day counted as if no year of the era had a leap day. `leapless`
never falls, and it passes a multiple of 365 where a year begins and nowhere else; so the quotient
is the year.
-/

namespace RequestGuard.Calendar.Date

/-! ## Years of an era -/

/-- The first day of a year of an era. -/
def yearStart (y : Int) : Int :=
  365 * y + y / 4 - y / 100

/-- The count of days in a year of an era; its leap day is that of the calendar year in which it
ends. -/
def yearLength (y : Int) : Int :=
  if isLeap (y + 1) then 366 else 365

/-- A day of an era, the leap days before it left out of the count. -/
def leapless (e : Int) : Int :=
  e - e / 1460 + e / 36524 - e / 146096

theorem leapless_le {a b : Int} (h : a ≤ b) : leapless a ≤ leapless b := by
  unfold leapless
  omega

/-- The day before a year of an era is below the year's multiple of 365, and the day after its last
one has reached the next. -/
theorem leapless_year : ∀ y : Fin 400,
    (yearStart y = 0 ∨ leapless (yearStart y - 1) < 365 * (y : Int)) ∧
      365 * ((y : Int) + 1) ≤ leapless (yearStart y + yearLength y) := by
  decide +kernel

/-- The quotient of a day of an era is the year that the day lies in. -/
theorem mem_year {e y : Int} (h0 : 0 ≤ e) (h : e < 146097) (hy : y = leapless e / 365) :
    (0 ≤ y ∧ y < 400) ∧ yearStart y ≤ e ∧ e < yearStart y + yearLength y := by
  have hfrom : leapless 0 ≤ leapless e := leapless_le h0
  have hto : leapless e ≤ leapless 146096 := leapless_le (by omega)
  have hends : leapless 0 = 0 ∧ leapless 146096 = 145999 := by decide
  have hbounds : 0 ≤ y ∧ y < 400 := by omega
  obtain ⟨n, rfl⟩ := Int.eq_ofNat_of_zero_le hbounds.1
  obtain ⟨hbefore, hafter⟩ := leapless_year ⟨n, by omega⟩
  simp only at hbefore hafter
  refine ⟨hbounds, Int.not_lt.mp fun hlt => ?_, Int.not_le.mp fun hle => ?_⟩
  · rcases hbefore with hzero | hbefore
    · omega
    · have hmono := leapless_le (show e ≤ yearStart n - 1 by omega)
      omega
  · have hmono := leapless_le hle
    omega

/-! ## Dates from their parts -/

/-- The date on a day of a year of an era. -/
def ofYearDay (era y d : Int) : Date :=
  let month := (5 * d + 2) / 153
  let day := d - (153 * month + 2) / 5 + 1
  let year := y + era * 400
  { year := if month < 10 then year else year + 1
    month := (if month < 10 then month + 3 else month - 9).toNat
    day := day.toNat }

/-- Every day number is that of a day of a year of an era. -/
theorem exists_ofNumber_eq (n : Int) : ∃ era y d : Int, (0 ≤ y ∧ y < 400) ∧ (0 ≤ d ∧ d < yearLength y) ∧
    n + 719468 = era * 146097 + yearStart y + d ∧ ofNumber n = ofYearDay era y d := by
  obtain ⟨hy, hfrom, hto⟩ := mem_year (e := (n + 719468) % 146097) (by omega) (by omega) rfl
  refine ⟨(n + 719468) / 146097, _, _, hy, ⟨Int.sub_nonneg.mpr hfrom, by omega⟩, by omega, rfl⟩

/-- The calendar has the day: 366 days only where the year ends in a leap day. -/
theorem isValid_ofYearDay {era y d : Int} (h0 : 0 ≤ d) (h : d < yearLength y) :
    (ofYearDay era y d).IsValid := by
  have hlast : d < 365 ∨ d = 365 ∧ isLeap (y + 1) = true := by
    unfold yearLength at h
    split at h
    · rename_i hleap
      exact (Int.lt_or_eq_of_le (Int.le_of_lt_add_one h)).imp_right fun hd => ⟨hd, hleap⟩
    · exact .inl h
  have hshift : isLeap (y + era * 400 + 1) = isLeap (y + 1) := by
    have h4 : (y + era * 400 + 1) % 4 = (y + 1) % 4 := by omega
    have h100 : (y + era * 400 + 1) % 100 = (y + 1) % 100 := by omega
    have h400 : (y + era * 400 + 1) % 400 = (y + 1) % 400 := by omega
    rw [isLeap, isLeap, h4, h100, h400]
  have hmonth : 0 ≤ (5 * d + 2) / 153 ∧ (5 * d + 2) / 153 < 12 := by omega
  simp only [ofYearDay, IsValid, daysInMonth]
  rcases Int.lt_or_le ((5 * d + 2) / 153) 10 with hm | hm
  · simp only [hm, if_true]
    refine ⟨by omega, by omega, by omega, ?_⟩
    split
    · omega
    · split <;> omega
  · simp only [show ¬(5 * d + 2) / 153 < 10 by omega, if_false, hshift]
    refine ⟨by omega, by omega, by omega, ?_⟩
    split
    · rcases hlast with hlast | ⟨rfl, hleap⟩
      · split <;> omega
      · simp [hleap]
    · split <;> omega

theorem number_ofYearDay {era y d : Int} (hy : 0 ≤ y ∧ y < 400) (h0 : 0 ≤ d) (h : d < 366) :
    (ofYearDay era y d).number = era * 146097 + yearStart y + d - 719468 := by
  have hera : (y + era * 400) / 400 = era ∧ (y + era * 400) % 400 = y := by omega
  have hmonth : 0 ≤ (5 * d + 2) / 153 ∧ (5 * d + 2) / 153 < 12 := by omega
  have hday : ((d - (153 * ((5 * d + 2) / 153) + 2) / 5 + 1).toNat : Int) =
      d - (153 * ((5 * d + 2) / 153) + 2) / 5 + 1 := by omega
  simp only [ofYearDay, number, yearStart, hday]
  -- from March to December the year counted is the calendar's, in January and February the one before
  rcases Int.lt_or_le ((5 * d + 2) / 153) 10 with hm | hm
  · have hback : (((5 * d + 2) / 153 + 3).toNat + 9 : Int) % 12 = (5 * d + 2) / 153 := by omega
    have hafter : ¬((5 * d + 2) / 153 + 3).toNat ≤ 2 := by omega
    simp only [hm, if_true, hafter, if_false, hback, hera]
    omega
  · have hback : (((5 * d + 2) / 153 - 9).toNat + 9 : Int) % 12 = (5 * d + 2) / 153 := by omega
    have hafter : ((5 * d + 2) / 153 - 9).toNat ≤ 2 := by omega
    have hm' : ¬(5 * d + 2) / 153 < 10 := by omega
    simp only [hm', if_false, hafter, if_true, hback, Int.add_sub_cancel, hera]
    omega

/-! ## Numbers and back -/

/-- The calendar has the date of every day number. -/
theorem isValid_ofNumber (n : Int) : (ofNumber n).IsValid := by
  obtain ⟨era, y, d, -, ⟨h0, h⟩, -, hdate⟩ := exists_ofNumber_eq n
  rw [hdate]
  exact isValid_ofYearDay h0 h

/-- The date of a day number has that number. -/
theorem number_ofNumber (n : Int) : (ofNumber n).number = n := by
  obtain ⟨era, y, d, hy, ⟨h0, h⟩, hn, hdate⟩ := exists_ofNumber_eq n
  have hlength : yearLength y ≤ 366 := by
    unfold yearLength
    split <;> omega
  rw [hdate, number_ofYearDay hy h0 (by omega)]
  omega

/-! ## Numbers and years -/

/-- A date lies in a year or before it when its number is no larger than that of the year's last day. -/
theorem number_le_iff {d : Date} (h : d.IsValid) (y : Int) : d.number ≤ number ⟨y, 12, 31⟩ ↔ d.year ≤ y := by
  rcases d with ⟨year, month, day⟩
  obtain ⟨hfrom, hto, hday, hlast⟩ : 1 ≤ month ∧ month ≤ 12 ∧ 1 ≤ day ∧ day ≤ daysInMonth year month := h
  have hlength : day ≤ 31 := by
    apply Nat.le_trans hlast
    unfold daysInMonth
    split
    · split <;> omega
    · split <;> omega
  simp only [number]
  by_cases hbegins : month ≤ 2
  · by_cases hfirst : month = 1
    · subst hfirst
      simp
      omega
    · obtain rfl : month = 2 := by omega
      simp
      omega
  · -- from March on, the day of the year that is counted stays below the 306 days to its end
    have hofYear : 0 ≤ (153 * (((month : Int) + 9) % 12) + 2) / 5 + day - 1 ∧
        (153 * (((month : Int) + 9) % 12) + 2) / 5 + day - 1 ≤ 305 := by omega
    generalize (153 * (((month : Int) + 9) % 12) + 2) / 5 + day - 1 = k at hofYear
    simp [hbegins]
    omega

end RequestGuard.Calendar.Date
