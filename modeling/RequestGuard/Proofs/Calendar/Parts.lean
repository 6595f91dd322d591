import RequestGuard.Calendar.Pattern
import RequestGuard.Proofs.Calendar.Day

/-!
# The parts of an instant

A clock that is set some minutes ahead of UTC shows an instant by a date and a time of day. These
parts name the instant (`instant?_partsAt`), with the weekday or without it, whichever way the date
of that clock differs from the one in UTC.

UTC has its leap seconds at the ends of minutes (`IsUtc`), and no parts name any other: an offset
of whole minutes leaves the second of the minute as it is.
-/

namespace RequestGuard

open Calendar (Date Weekday Parts)

namespace Instant

/-! ## Leap seconds -/

/-- Whether the instant lies in a leap second. -/
def IsLeap (i : Instant) : Prop :=
  1000000000 ≤ i.nano

/-- A leap second, if it is one, follows the last second of a minute. -/
def IsUtc (i : Instant) : Prop :=
  i.IsLeap → i.second % 60 = 59

instance (i : Instant) : Decidable i.IsLeap :=
  inferInstanceAs (Decidable (_ ≤ _))

instance (i : Instant) : Decidable i.IsUtc :=
  inferInstanceAs (Decidable (_ → _))

/-! ## Clocks -/

variable (i : Instant) (offset : Int)

/-- The count of seconds that a clock so many minutes ahead of UTC shows. -/
def clockSecond : Int :=
  i.epochSecond + offset * 60

/-- The date that the clock shows. -/
def dateAt : Date :=
  .ofNumber (i.clockSecond offset / 86400)

/-- The weekday that the clock shows. -/
def weekdayAt : Weekday :=
  .ofNumber (i.clockSecond offset / 86400)

/-- The second of the day that the clock shows, a leap second counting as the one before it. -/
def timeAt : Nat :=
  (i.clockSecond offset % 86400).toNat

/-- What the clock shows, and by how much it is ahead. A leap second is the second 60. -/
def partsAt : Parts where
  year := (i.dateAt offset).year
  month := (i.dateAt offset).month
  day := (i.dateAt offset).day
  hour := i.timeAt offset / 3600
  minute := i.timeAt offset / 60 % 60
  second := i.timeAt offset % 60 + i.nano / 1000000000
  nano := i.nano % 1000000000
  offset := offset * 60

theorem timeAt_lt : i.timeAt offset < 86400 := by
  unfold timeAt
  omega

/-- An offset of whole minutes leaves the second of the minute as it is. -/
theorem timeAt_mod_sixty : i.timeAt offset % 60 = i.second % 60 := by
  unfold timeAt clockSecond epochSecond
  omega

variable {i}

theorem dateAt_zero : i.dateAt 0 = i.date := by
  have hday : i.clockSecond 0 / 86400 = i.day := by
    have hsecond := i.second_lt
    unfold clockSecond epochSecond
    omega
  rw [dateAt, date, hday]

theorem timeAt_zero : i.timeAt 0 = i.second := by
  have hsecond := i.second_lt
  unfold timeAt clockSecond epochSecond
  omega

theorem weekdayAt_eq (i : Instant) (offset : Int) : i.weekdayAt offset = .ofNumber (i.dateAt offset).number := by
  rw [weekdayAt, dateAt, Calendar.Date.number_ofNumber]

/-! ## Parts and back -/

theorem ofEpochSecond?_epochSecond (h : i.nano < 2000000000) :
    ofEpochSecond? i.epochSecond i.nano h = some i := by
  have hsecond := i.second_lt
  have hday : i.epochSecond / 86400 = i.day := by
    unfold epochSecond
    omega
  have hrest : (i.epochSecond % 86400).toNat = i.second := by
    unfold epochSecond
    omega
  have hrange : -96465292 ≤ i.epochSecond / 86400 ∧ i.epochSecond / 86400 ≤ 95026236 := hday ▸ i.day_in_range
  rw [ofEpochSecond?, dif_pos hrange]
  simp only [hday, hrest]

/-- The second 60 that a clock shows is the leap second, taken back to the one before it. -/
theorem partsAt_second (hutc : i.IsUtc) (offset : Int) :
    (if (i.partsAt offset).second = 60 then 59 else (i.partsAt offset).second) = i.second % 60 ∧
      (if (i.partsAt offset).second = 60 then (i.partsAt offset).nano + 1000000000
        else (i.partsAt offset).nano) = i.nano := by
  have hnano := i.nano_lt
  have hsixty := i.timeAt_mod_sixty offset
  have hshown : (i.partsAt offset).second = i.second % 60 + i.nano / 1000000000 := by
    rw [← hsixty]
    rfl
  have hrest : (i.partsAt offset).nano = i.nano % 1000000000 := rfl
  rcases Nat.lt_or_ge i.nano 1000000000 with hplain | hleap
  · have hne : ¬(i.partsAt offset).second = 60 := by omega
    rw [if_neg hne, if_neg hne]
    omega
  · have hlast : i.second % 60 = 59 := hutc hleap
    have heq : (i.partsAt offset).second = 60 := by omega
    rw [if_pos heq, if_pos heq]
    omega

/-- The date and the time of day that a clock shows count up to the instant. -/
theorem partsAt_count (i : Instant) (offset : Int) :
    (i.dateAt offset).number * 86400 +
        ((i.timeAt offset / 3600 * 3600 + i.timeAt offset / 60 % 60 * 60 + i.second % 60 : Nat) : Int) -
      offset * 60 = i.epochSecond := by
  have hsixty := i.timeAt_mod_sixty offset
  have hnumber : (i.dateAt offset).number = i.clockSecond offset / 86400 := Calendar.Date.number_ofNumber _
  have htime : (i.timeAt offset : Int) = i.clockSecond offset % 86400 := by
    unfold timeAt
    omega
  have hsplit : i.clockSecond offset = i.epochSecond + offset * 60 := rfl
  omega

/-- What a clock shows names the instant. -/
theorem instant?_partsAt (hutc : i.IsUtc) {offset : Int} (hoffset : offset.natAbs < 1440)
    (hyear : 0 ≤ (i.dateAt offset).year ∧ (i.dateAt offset).year ≤ 9999) {weekday : Option Weekday}
    (hweekday : weekday = none ∨ weekday = some (i.weekdayAt offset)) :
    ({ i.partsAt offset with weekday := weekday } : Parts).instant? = some i := by
  have htime := i.timeAt_lt offset
  obtain ⟨hsecond, hnano⟩ := partsAt_second hutc offset
  have hguard : -262143 ≤ (i.dateAt offset).year ∧ (i.dateAt offset).year ≤ 262142 ∧ (i.dateAt offset).IsValid ∧
      (weekday = none ∨ weekday = some (.ofNumber (i.dateAt offset).number)) ∧
      i.timeAt offset / 3600 < 24 ∧ i.timeAt offset / 60 % 60 < 60 ∧ i.second % 60 < 60 ∧
      (offset * 60).natAbs < 86400 := by
    refine ⟨by omega, by omega, Calendar.Date.isValid_ofNumber _, ?_, by omega, by omega, by omega, by omega⟩
    rwa [← weekdayAt_eq]
  rw [Parts.instant?]
  simp only [hsecond, hnano, dif_pos i.nano_lt]
  refine (if_pos hguard).trans ?_
  have hsame := ofEpochSecond?_epochSecond i.nano_lt
  rw [← i.partsAt_count offset] at hsame
  exact hsame

end Instant

end RequestGuard
