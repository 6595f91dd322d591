import RequestGuard.Proofs.Calendar.Agreement
import RequestGuard.Proofs.Calendar.LeapSecond
import RequestGuard.Schema.Coercion

/-!
# Timestamps read back

The two texts that are written for an instant are texts of RFC 3339 in UTC, so the first reader of
dates takes them (`isTakenFor_write`). JSON loses nothing; the text for people loses what is left of
a millisecond, and a leap second remains one.
-/

namespace RequestGuard

open Calendar (Parts)
open Timestamp (Precision writeFraction)

/-! ## What is kept -/

theorem Timestamp.Precision.keep_le (p : Precision) (nano : Nat) : p.keep nano ≤ nano := by
  cases p with
  | millis => exact Nat.div_mul_le_self nano 1000000
  | exact => exact le_rfl

/-- Nothing is dropped but what is left of a second. -/
theorem Timestamp.Precision.keep_second (p : Precision) (nano : Nat) :
    p.keep nano / 1000000000 = nano / 1000000000 ∧ p.keep nano % 1000000000 = p.keep (nano % 1000000000) := by
  cases p with
  | millis =>
    simp only [Precision.keep]
    omega
  | exact => exact ⟨rfl, rfl⟩

namespace Instant

variable {i : Instant}

/-- The instant as it is written. -/
def keep (p : Precision) (i : Instant) : Instant :=
  { i with nano := p.keep i.nano, nano_lt := (p.keep_le i.nano).trans_lt i.nano_lt }

/-- A leap second remains one. -/
theorem isLeap_keep (p : Precision) (i : Instant) : (i.keep p).IsLeap ↔ i.IsLeap := by
  have hsecond : p.keep i.nano / 1000000000 = i.nano / 1000000000 := (p.keep_second i.nano).1
  show 1000000000 ≤ p.keep i.nano ↔ 1000000000 ≤ i.nano
  omega

theorem partsAt_keep (p : Precision) (i : Instant) (offset : Int) :
    (i.keep p).partsAt offset = { i.partsAt offset with nano := p.keep (i.nano % 1000000000) } := by
  obtain ⟨hsecond, hrest⟩ := p.keep_second i.nano
  show ({ i.partsAt offset with
      second := i.timeAt offset % 60 + p.keep i.nano / 1000000000, nano := p.keep i.nano % 1000000000 } : Parts) = _
  rw [hsecond, hrest]
  rfl

/-! ## Timestamps -/

theorem writeDate_eq (i : Instant) : Timestamp.writeDate i.date = (i.partsAt 0).dateText := by
  rw [← dateAt_zero]
  rfl

/-- The second 60 is written for a leap second, as a clock shows it. -/
theorem writeClock_eq (p : Precision) (i : Instant) :
    Timestamp.writeClock p i.second i.nano =
      (i.partsAt 0).timeText ++ writeFraction p (i.nano % 1000000000) := by
  have hnano := i.nano_lt
  simp only [Parts.timeText, Parts.minuteText, partsAt, timeAt_zero]
  rcases Nat.lt_or_ge i.nano 1000000000 with hplain | hleap
  · have hsecond : i.nano / 1000000000 = 0 ∧ i.nano % 1000000000 = i.nano := by omega
    rw [Timestamp.writeClock, if_pos hplain, Timestamp.writeTime, hsecond.1, hsecond.2, Nat.add_zero]
  · have hsecond : i.nano / 1000000000 = 1 ∧ i.nano % 1000000000 = i.nano - 1000000000 := by omega
    rw [Timestamp.writeClock, if_neg (Nat.not_lt.mpr hleap), hsecond.1, hsecond.2]

/-- A timestamp is the text of RFC 3339 for what a clock in UTC shows. -/
theorem write_eq (p : Precision) (i : Instant) :
    Timestamp.write p i = (i.partsAt 0).dateText ++ 'T' :: ((i.partsAt 0).timeText ++
      (writeFraction p (i.nano % 1000000000) ++ ['Z'])) := by
  rw [Timestamp.write, writeDate_eq, writeClock_eq]
  simp only [List.append_assoc, List.cons_append]

/-- A timestamp is taken for the instant as it is written. -/
theorem isTakenFor_write (hutc : i.IsUtc) (hyear : 0 ≤ i.date.year ∧ i.date.year ≤ 9999) (p : Precision) :
    Calendar.IsTakenFor (Timestamp.write p i) (i.keep p) := by
  rw [← dateAt_zero] at hyear
  have hkept : (i.keep p).IsUtc := fun hleap => hutc ((isLeap_keep p i).mp hleap)
  have hi := instant?_partsAt hkept (by decide) hyear (.inl rfl)
  rw [partsAt_keep] at hi
  have hfraction := Calendar.optionalFraction?_write p (Nat.mod_lt i.nano (by decide : 1000000000 > 0))
    (Calendar.digitsEnd_cons (by decide : 'Z'.isDigit = false) []) (by simp)
  rw [write_eq]
  have hend := Text.trimEnd_append_of_not_blank (by decide : Text.isBlank 'Z' = false)
    ((i.partsAt 0).dateText ++ 'T' :: (i.partsAt 0).timeText ++ writeFraction p (i.nano % 1000000000))
  rw [List.append_assoc] at hend
  exact (fits_partsAt hyear).isTakenFor_rfc3339 hfraction rfl hend hi

/-- A timestamp denotes the instant as it is written. -/
theorem ofText?_write (hutc : i.IsUtc) (hyear : 0 ≤ i.date.year ∧ i.date.year ≤ 9999) (p : Precision) :
    Instant.ofText? (String.ofList (Timestamp.write p i)) = some (i.keep p) := by
  have htext := (isTakenFor_write hutc hyear p).ofText? (List.forall_mem_nil _) (List.forall_mem_nil _)
  rwa [List.nil_append, List.append_nil] at htext

end Instant

/-! ## Dates -/

/-- The JSON of a date is accepted as that date. -/
theorem coerce?_date_write {i : Instant} (hutc : i.IsUtc) (hyear : 0 ≤ i.date.year ∧ i.date.year ≤ 9999) :
    Coercion.date.coerce? (.text (String.ofList (Timestamp.write .exact i))) = some (.date i) := by
  show (Instant.ofText? (String.ofList (Timestamp.write .exact i))).map FieldValue.date = some (.date i)
  rw [Instant.ofText?_write hutc hyear .exact]
  rfl

/-- A date in UTC with a year of up to four digits reads back from its JSON as it is, and from its
text for people as it is to the millisecond. -/
theorem date_written {i : Instant} (hutc : i.IsUtc) (hyear : 0 ≤ i.date.year ∧ i.date.year ≤ 9999) :
    (∃ t, (FieldValue.date i).toJson = .string t ∧ Instant.ofText? t = some i ∧
      Coercion.date.coerce? (.text t) = some (.date i)) ∧
    ∃ j, Instant.ofText? (FieldValue.date i).display = some j ∧ j.day = i.day ∧ j.second = i.second ∧
      j.nano = i.nano / 1000000 * 1000000 ∧ (j.IsLeap ↔ i.IsLeap) := by
  have hjson := Instant.ofText?_write hutc hyear .exact
  have hdisplay := Instant.ofText?_write hutc hyear .millis
  constructor
  · exact ⟨_, rfl, hjson, coerce?_date_write hutc hyear⟩
  · exact ⟨_, hdisplay, rfl, rfl, rfl, Instant.isLeap_keep .millis i⟩

/-- The last leap second, with half of it gone. -/
theorem date_written_leapSecond :
    (∃ t, (FieldValue.date ⟨17166, 86399, 1500600700, by decide, by decide, by decide⟩).toJson = .string t ∧
      Instant.ofText? t = some ⟨17166, 86399, 1500600700, by decide, by decide, by decide⟩ ∧
      Coercion.date.coerce? (.text t) =
        some (.date ⟨17166, 86399, 1500600700, by decide, by decide, by decide⟩)) ∧
    ∃ j, Instant.ofText?
        (FieldValue.date ⟨17166, 86399, 1500600700, by decide, by decide, by decide⟩).display = some j ∧
      j.day = 17166 ∧ j.second = 86399 ∧ j.nano = 1500600700 / 1000000 * 1000000 ∧
      (j.IsLeap ↔ Instant.IsLeap ⟨17166, 86399, 1500600700, by decide, by decide, by decide⟩) :=
  date_written (by decide) (by decide)

/-- What a value that is no date is brought into as a date is accepted again as it is written. -/
theorem coerce?_date_toJson {v : FieldValue} {i : Instant} (hv : v.date? = none)
    (h : Coercion.date.coerce? v = some (.date i)) (hyear : 0 ≤ i.date.year ∧ i.date.year ≤ 9999) :
    ∃ t, (FieldValue.date i).toJson = .string t ∧ Coercion.date.coerce? (.text t) = some (.date i) := by
  have hutc : i.IsUtc := by
    apply FieldValue.isUtc_of_instant? (v := v)
    · simpa [Coercion.coerce?] using h
    · rintro d rfl
      simp [FieldValue.date?] at hv
  exact ⟨_, rfl, coerce?_date_write hutc hyear⟩

end RequestGuard
