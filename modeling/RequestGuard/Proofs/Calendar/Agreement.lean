import RequestGuard.Proofs.Calendar.Order
import RequestGuard.Proofs.Calendar.Parts

/-!
# The spellings of an instant agree

`Spells` says which texts spell a whole second: in each of the forms that carry an offset at every
offset of whole minutes below a day, and in the forms without one at the offset zero. Whatever the
offset does to the date, and whether or not blanks are put around the text, each of them denotes the
instant it was spelled from (`ofText?_of_spells`).
-/

namespace RequestGuard

open Calendar (Parts writeOffset)
open Text (isBlank)

namespace Instant

variable {i : Instant} {offset : Int}

/-! ## The parts that a clock shows -/

theorem fits_partsAt (hyear : 0 ≤ (i.dateAt offset).year ∧ (i.dateAt offset).year ≤ 9999) :
    (i.partsAt offset).Fits := by
  have htime := i.timeAt_lt offset
  have hnano := i.nano_lt
  obtain ⟨hfirst, hlast, -, hday⟩ : (i.dateAt offset).IsValid := Calendar.Date.isValid_ofNumber _
  have hdays : Calendar.daysInMonth (i.dateAt offset).year (i.dateAt offset).month ≤ 31 := by
    unfold Calendar.daysInMonth
    split_ifs <;> omega
  refine ⟨hyear, ⟨hfirst, hlast⟩, ?_, ?_, ?_, ?_⟩ <;> simp only [partsAt] <;> omega

/-- In a whole second the parts that no form spells are what they are by default. -/
theorem instant?_spelled (hutc : i.IsUtc) (hwhole : i.nano % 1000000000 = 0) (hoffset : offset.natAbs < 1440)
    (hyear : 0 ≤ (i.dateAt offset).year ∧ (i.dateAt offset).year ≤ 9999) {weekday : Option Calendar.Weekday}
    (hweekday : weekday = none ∨ weekday = some (i.weekdayAt offset)) :
    ({ i.partsAt offset with weekday := weekday, nano := 0, offset := offset * 60 } : Parts).instant? = some i := by
  rw [← instant?_partsAt hutc hoffset hyear hweekday, ← hwhole]
  rfl

/-! ## Spellings -/

/-- A year of four digits. -/
def HasFourDigits (year : Int) : Prop :=
  1000 ≤ year ∧ year ≤ 9999

instance (year : Int) : Decidable (HasFourDigits year) :=
  inferInstanceAs (Decidable (_ ∧ _))

/-- The texts that spell an instant to the second. -/
inductive Spells (i : Instant) : List Char → Prop where
  /-- RFC 3339: `2026-01-15T14:00:00+02:00`. -/
  | rfc3339 (offset : Int) (hoffset : offset.natAbs < 1440) (hyear : HasFourDigits (i.dateAt offset).year) :
      Spells i ((i.partsAt offset).dateText ++ 'T' :: ((i.partsAt offset).timeText ++ writeOffset [':'] offset))
  /-- RFC 3339 in UTC: `2026-01-15T12:00:00Z`. -/
  | zulu (hyear : HasFourDigits (i.dateAt 0).year) :
      Spells i ((i.partsAt 0).dateText ++ 'T' :: ((i.partsAt 0).timeText ++ ['Z']))
  /-- RFC 2822, the day of the month in one digit or two: `Thu, 15 Jan 2026 14:00:00 +0200`. -/
  | rfc2822 (offset : Int) (hoffset : offset.natAbs < 1440) (hyear : HasFourDigits (i.dateAt offset).year)
      (width : Nat) (hwidth : width = 1 ∨ width = 2) :
      Spells i ((i.partsAt offset).mailText (i.weekdayAt offset) width ++ writeOffset [] offset)
  /-- The form with names: `Thu Jan 15 2026 14:00:00 GMT+0200`. -/
  | named (offset : Int) (hoffset : offset.natAbs < 1440) (hyear : HasFourDigits (i.dateAt offset).year) :
      Spells i ((i.partsAt offset).namedText (i.weekdayAt offset) ++ writeOffset [] offset)
  /-- The form with names and any text behind a parenthesis. -/
  | namedZone (offset : Int) (hoffset : offset.natAbs < 1440) (hyear : HasFourDigits (i.dateAt offset).year)
      (zone : List Char) :
      Spells i ((i.partsAt offset).namedText (i.weekdayAt offset) ++ writeOffset [] offset ++ ' ' :: '(' :: zone)
  /-- Date and time in UTC: `2026-01-15T12:00:00`. -/
  | plain (hyear : HasFourDigits (i.dateAt 0).year) :
      Spells i ((i.partsAt 0).dateText ++ 'T' :: (i.partsAt 0).timeText)
  /-- Date and time in UTC with a blank between them: `2026-01-15 12:00:00`. -/
  | plainBlank (hyear : HasFourDigits (i.dateAt 0).year) :
      Spells i ((i.partsAt 0).dateText ++ ' ' :: (i.partsAt 0).timeText)
  /-- Date and time in UTC to the minute: `2026-01-15T12:00`. -/
  | minute (hyear : HasFourDigits (i.dateAt 0).year) (hzero : (i.partsAt 0).second = 0) :
      Spells i ((i.partsAt 0).dateText ++ 'T' :: (i.partsAt 0).minuteText)
  /-- The date of a midnight in UTC: `2026-01-15`. -/
  | midnight (hyear : HasFourDigits (i.dateAt 0).year)
      (hzero : (i.partsAt 0).hour = 0 ∧ (i.partsAt 0).minute = 0 ∧ (i.partsAt 0).second = 0) :
      Spells i (i.partsAt 0).dateText

theorem fits_of_hasFourDigits (hyear : HasFourDigits (i.dateAt offset).year) : (i.partsAt offset).Fits :=
  fits_partsAt ⟨by have := hyear.1; omega, hyear.2⟩

/-- What spells an instant is taken for it. -/
theorem isTakenFor_of_spells (hutc : i.IsUtc) (hwhole : i.nano % 1000000000 = 0) {cs : List Char}
    (h : i.Spells cs) : Calendar.IsTakenFor cs i := by
  have hspelled : ∀ {offset : Int}, offset.natAbs < 1440 → HasFourDigits (i.dateAt offset).year →
      ∀ {weekday}, weekday = none ∨ weekday = some (i.weekdayAt offset) →
      ({ i.partsAt offset with weekday := weekday, nano := 0, offset := offset * 60 } : Parts).instant? = some i :=
    fun hoffset hyear => instant?_spelled hutc hwhole hoffset ⟨by have := hyear.1; omega, hyear.2⟩
  have hzero : (0 : Int).natAbs < 1440 := by decide
  cases h with
  | rfc3339 offset hoffset hyear =>
    have hzone := Calendar.zuluOrOffset?_write hoffset []
    rw [List.append_nil] at hzone
    exact (fits_of_hasFourDigits hyear).isTakenFor_rfc3339
      (Calendar.optionalFraction?_of_no_point (Calendar.no_point_writeOffset _ offset)) hzone
      (Calendar.trimEnd_writeOffset _ [':'] offset) (hspelled hoffset hyear (.inl rfl))
  | zulu hyear =>
    exact (fits_of_hasFourDigits hyear).isTakenFor_rfc3339 rfl rfl (Text.trimEnd_append_of_not_blank (by decide) _)
      (hspelled hzero hyear (.inl rfl))
  | rfc2822 offset hoffset hyear width hwidth =>
    exact (fits_of_hasFourDigits hyear).isTakenFor_mailText _ hwidth hoffset (hspelled hoffset hyear (.inr rfl))
  | named offset hoffset hyear =>
    exact (fits_of_hasFourDigits hyear).isTakenFor_namedText _ hoffset (hspelled hoffset hyear (.inr rfl))
  | namedZone offset hoffset hyear zone =>
    exact (fits_of_hasFourDigits hyear).isTakenFor_namedZone _ hoffset (hspelled hoffset hyear (.inr rfl)) zone
  | plain hyear =>
    have hp := fits_of_hasFourDigits hyear
    exact hp.isTakenFor_plain (hp.rfc3339Parts?_time (.inl rfl)) (Parts.trimEnd_timeText _ _)
      (hp.findSome?_time (hspelled hzero hyear (.inl rfl)))
  | plainBlank hyear =>
    have hp := fits_of_hasFourDigits hyear
    exact hp.isTakenFor_plain (hp.rfc3339Parts?_time (.inr rfl)) (Parts.trimEnd_timeText _ _)
      (hp.findSome?_blank (hspelled hzero hyear (.inl rfl)))
  | minute hyear hsecond =>
    have hp := fits_of_hasFourDigits hyear
    exact hp.isTakenFor_plain hp.rfc3339Parts?_minute (Parts.trimEnd_minuteText _ _)
      (hp.findSome?_minute hsecond (hspelled hzero hyear (.inl rfl)))
  | midnight hyear hmidnight =>
    have hp := fits_of_hasFourDigits hyear
    have htaken : Calendar.IsTakenFor ((i.partsAt 0).dateText ++ []) i :=
      hp.isTakenFor_plain (by rw [List.append_nil]; exact hp.rfc3339Parts?_date)
        (by rw [List.append_nil]; exact Parts.trimEnd_dateText)
        (by rw [List.append_nil]; exact hp.findSome?_date hmidnight (hspelled hzero hyear (.inl rfl)))
    rwa [List.append_nil] at htaken

/-- Every spelling of an instant denotes it, with blanks around the text or without. -/
theorem ofText?_of_spells (hutc : i.IsUtc) (hwhole : i.nano % 1000000000 = 0) {cs pre post : List Char}
    (h : i.Spells cs) (hpre : ∀ c ∈ pre, isBlank c = true) (hpost : ∀ c ∈ post, isBlank c = true) :
    Instant.ofText? (String.ofList (pre ++ cs ++ post)) = some i :=
  (isTakenFor_of_spells hutc hwhole h).ofText? hpre hpost

/-- The leap second at the end of 2016. -/
def lastLeapSecond : Instant :=
  ⟨17166, 86399, 1000000000, by decide, by decide, by decide⟩

/-- Where clocks are two hours ahead, it lies in the next year. -/
theorem ofText?_lastLeapSecond :
    Instant.ofText? " Sun Jan 01 2017 01:59:60 GMT+0200 (EET) " = some lastLeapSecond := by
  have htext : "Sun Jan 01 2017 01:59:60 GMT+0200 (EET)".toList = (lastLeapSecond.partsAt 120).namedText
      (lastLeapSecond.weekdayAt 120) ++ writeOffset [] 120 ++ ' ' :: '(' :: "EET)".toList := by decide +kernel
  have hspells : lastLeapSecond.Spells "Sun Jan 01 2017 01:59:60 GMT+0200 (EET)".toList := by
    rw [htext]
    exact .namedZone 120 (by decide) (by decide +kernel) _
  have hblank : ∀ c ∈ [' '], isBlank c = true := List.forall_mem_singleton.mpr (by decide)
  have haround : " Sun Jan 01 2017 01:59:60 GMT+0200 (EET) " =
      String.ofList ([' '] ++ "Sun Jan 01 2017 01:59:60 GMT+0200 (EET)".toList ++ [' ']) := by decide +kernel
  rw [haround]
  exact ofText?_of_spells (by decide) (by decide) hspells hblank hblank

end Instant

end RequestGuard
