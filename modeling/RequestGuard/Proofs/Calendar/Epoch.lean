import RequestGuard.Proofs.Calendar.Parts
import RequestGuard.Proofs.Calendar.Reading
import RequestGuard.Proofs.Number.Integers
import RequestGuard.Request.FieldValue

/-!
# Epoch milliseconds

A count of milliseconds names the same instant whether it comes as an integer, as a number or as a
text (`instant?_of_epochMillis`). A number is exact up to `2 ^ 53`, and what a larger count is rounded
to is still larger than any that names an instant (`ofBinary64?_of_isNearest`).

Which counts name one is bounded twice: by `maxEpochMillis` and by the years that instants may have.
-/

namespace RequestGuard

open Calendar (Date)

namespace Instant

/-! ## The counts of instants -/

/-- Whether some instant has the count of milliseconds, leap seconds left aside. -/
def IsRepresentable (ms : Int) : Prop :=
  ∃ i : Instant, ¬i.IsLeap ∧ i.epochMillis = ms

theorem isRepresentable_iff {ms : Int} :
    IsRepresentable ms ↔ -96465292 ≤ ms / 86400000 ∧ ms / 86400000 ≤ 95026236 := by
  constructor
  · rintro ⟨i, hplain, rfl⟩
    obtain ⟨hlow, hhigh⟩ := i.day_in_range
    have hsecond := i.second_lt
    -- outside a leap second the milliseconds stay within the day
    unfold IsLeap at hplain
    unfold epochMillis epochSecond
    omega
  · intro hday
    refine ⟨⟨ms / 86400000, (ms / 1000 % 86400).toNat, (ms % 1000).toNat * 1000000, hday, by omega, by omega⟩, ?_, ?_⟩
    · show ¬1000000000 ≤ (ms % 1000).toNat * 1000000
      omega
    · show (ms / 86400000 * 86400 + ((ms / 1000 % 86400).toNat : Int)) * 1000 +
        ((ms % 1000).toNat * 1000000 / 1000000 : Nat) = ms
      omega

/-- The representable counts are those of the days from the year -262143 to the year 262142. -/
theorem isRepresentable_iff_year {ms : Int} :
    IsRepresentable ms ↔
      -262143 ≤ (Date.ofNumber (ms / 86400000)).year ∧ (Date.ofNumber (ms / 86400000)).year ≤ 262142 := by
  have hvalid := Date.isValid_ofNumber (ms / 86400000)
  have hnumber := Date.number_ofNumber (ms / 86400000)
  have hbefore : ms / 86400000 ≤ -96465293 ↔ (Date.ofNumber (ms / 86400000)).year ≤ -262144 := by
    have hlast : Date.number ⟨-262144, 12, 31⟩ = -96465293 := by decide
    rw [← Date.number_le_iff hvalid, hnumber, hlast]
  have hupto : ms / 86400000 ≤ 95026236 ↔ (Date.ofNumber (ms / 86400000)).year ≤ 262142 := by
    have hlast : Date.number ⟨262142, 12, 31⟩ = 95026236 := by decide
    rw [← Date.number_le_iff hvalid, hnumber, hlast]
  rw [isRepresentable_iff]
  omega

/-- The years that instants may have are the narrower bound. -/
theorem IsRepresentable.natAbs_le {ms : Int} (h : IsRepresentable ms) : ms.natAbs ≤ maxEpochMillis := by
  have hday := isRepresentable_iff.mp h
  unfold maxEpochMillis
  omega

/-! ## From integers -/

/-- The instant of a count has that count. -/
theorem of_ofEpochMillis? {ms : Int} {i : Instant} (h : ofEpochMillis? ms = some i) :
    ¬i.IsLeap ∧ i.epochMillis = ms := by
  rw [ofEpochMillis?, ofEpochSecond?] at h
  split at h
  · split at h
    · cases h
      unfold IsLeap epochMillis epochSecond
      simp only
      omega
    · cases h
  · cases h

theorem ofEpochMillis?_eq_none_iff {ms : Int} :
    ofEpochMillis? ms = none ↔ maxEpochMillis < ms.natAbs ∨ ¬IsRepresentable ms := by
  have hday : ms / 1000 / 86400 = ms / 86400000 := by omega
  rw [isRepresentable_iff, ofEpochMillis?, ofEpochSecond?]
  split
  · rename_i hsize
    split
    · rename_i hrange
      rw [hday] at hrange
      simp [hrange, Nat.not_lt.mpr hsize]
    · rename_i hrange
      rw [hday] at hrange
      simp only [hrange, not_false_eq_true, or_true]
  · rename_i hsize
    simp only [Nat.not_le.mp hsize, true_or]

/-! ## From numbers -/

/-- A number nearest to a count lies within the bound as the count does: up to `2 ^ 53` it is the count, and
beyond that both are outside. -/
theorem isWithin_iff_of_isNearest {x : Binary64} {ms : Int} (h : x.IsNearest ms) :
    x.isWithin maxEpochMillis = true ↔ ms.natAbs ≤ maxEpochMillis := by
  rw [Binary64.isWithin_iff]
  rcases Nat.lt_or_ge (2 ^ 53) ms.natAbs with hfar | hnear
  · have hmax : maxEpochMillis < 2 ^ 53 := by decide
    constructor
    · rintro ⟨v, hv, hbound⟩
      have hbeyond : (2 : ℚ) ^ 53 ≤ maxEpochMillis := (h.le_abs hv hfar.le).trans hbound
      have hnat : 2 ^ 53 ≤ maxEpochMillis := by exact_mod_cast hbeyond
      omega
    · omega
  · have hexact : x.value? = some (ms : ℚ) := h.value?_eq_of_exists (Binary64.value?_ofInt hnear)
    simp only [hexact, Option.some_inj, exists_eq_left', Binary64.abs_intCast, Nat.cast_le]

/-- A number that is nearest to a count names the instant of the count itself. -/
theorem ofBinary64?_of_isNearest {x : Binary64} {ms : Int} (h : x.IsNearest ms) :
    ofBinary64? x = ofEpochMillis? ms := by
  rw [ofBinary64?]
  by_cases hsize : ms.natAbs ≤ maxEpochMillis
  · have hnear : ms.natAbs ≤ 2 ^ 53 := hsize.trans (by decide)
    have hexact : x.value? = some (ms : ℚ) := h.value?_eq_of_exists (Binary64.value?_ofInt hnear)
    rw [if_pos ((isWithin_iff_of_isNearest h).mpr hsize), Binary64.truncate?_of_value? hexact, Option.bind_some]
  · rw [if_neg (mt (isWithin_iff_of_isNearest h).mp hsize), ofEpochMillis?, if_neg hsize]

end Instant

/-! ## From texts -/

/-- White space around an integer in decimal is trimmed, and the integer has none of its own. -/
theorem Numeral.IsDecimal.trim {cs : List Char} {i : Int} (h : IsDecimal cs i) : Text.trim cs = cs := by
  obtain ⟨ds, -, hds, hcs⟩ := h
  have hdigit : ∀ c ∈ ds, Text.isBlank c = false := fun c hc => Calendar.not_isBlank_of_isDigit (hds c hc)
  apply Text.trim_of_not_blank
  rcases hcs with ⟨rfl | rfl, -⟩ | ⟨rfl, -⟩
  · exact hdigit
  · exact List.forall_mem_cons.mpr ⟨by decide, hdigit⟩
  · exact List.forall_mem_cons.mpr ⟨by decide, hdigit⟩

/-- A text of a count names the instant of the count. -/
theorem Instant.ofText?_of_isDecimal {cs pre post : List Char} {ms : Int} (h : Numeral.IsDecimal cs ms)
    (hsize : ms.natAbs < 0x10000000000000000) (hpre : ∀ c ∈ pre, Text.isBlank c = true)
    (hpost : ∀ c ∈ post, Text.isBlank c = true) :
    ofText? (String.ofList (pre ++ (cs ++ post))) = ofEpochMillis? ms := by
  obtain ⟨x, hx, hnearest⟩ := Numeral.exists_binary64?_of_isDecimal h hsize
  rw [ofText?, String.toList_ofList, Text.trim_append_of_blank hpre hpost, h.trim]
  simp only [hx]
  exact ofBinary64?_of_isNearest hnearest

/-! ## The three alike -/

/-- **A count of milliseconds names one instant, however it arrives.** The instant has exactly that
count, and it is missing exactly where the count is beyond `8.64e15` or no instant has it. -/
theorem instant?_of_epochMillis (ms : Int64) (cs pre post : List Char) (hcs : Numeral.IsDecimal cs ms.toInt)
    (hpre : ∀ c ∈ pre, Text.isBlank c = true) (hpost : ∀ c ∈ post, Text.isBlank c = true) :
    (FieldValue.number (.ofInt ms.toInt)).instant? = (FieldValue.integer ms).instant? ∧
      (FieldValue.text (String.ofList (pre ++ (cs ++ post)))).instant? = (FieldValue.integer ms).instant? ∧
      (∀ i, (FieldValue.integer ms).instant? = some i → ¬i.IsLeap ∧ i.epochMillis = ms.toInt) ∧
      ((FieldValue.integer ms).instant? = none ↔
        8640000000000000 < ms.toInt.natAbs ∨ ¬Instant.IsRepresentable ms.toInt) := by
  have hsize := Binary64.natAbs_toInt_lt ms
  refine ⟨?_, ?_, ?_, ?_⟩
  · exact Instant.ofBinary64?_of_isNearest (Binary64.isNearest_ofInt hsize)
  · exact Instant.ofText?_of_isDecimal hcs hsize hpre hpost
  · intro i hi
    exact Instant.of_ofEpochMillis? hi
  · exact Instant.ofEpochMillis?_eq_none_iff

/-- The last count that names an instant, behind a sign and between blanks. -/
theorem instant?_of_epochMillis_last :
    (FieldValue.number (.ofInt 8210266876799999)).instant? = (FieldValue.integer 8210266876799999).instant? ∧
      (FieldValue.text "\u3000+8210266876799999\n").instant? = (FieldValue.integer 8210266876799999).instant? ∧
      (∀ i, (FieldValue.integer 8210266876799999).instant? = some i → ¬i.IsLeap ∧ i.epochMillis = 8210266876799999) ∧
      ((FieldValue.integer 8210266876799999).instant? = none ↔
        8640000000000000 < (8210266876799999 : Int).natAbs ∨ ¬Instant.IsRepresentable 8210266876799999) :=
  instant?_of_epochMillis 8210266876799999 "+8210266876799999".toList ['\u3000'] ['\n']
    ⟨"8210266876799999".toList, by decide, List.all_eq_true.mp (by decide), .inl ⟨.inr rfl, by decide⟩⟩
    (List.all_eq_true.mp (by decide)) (List.all_eq_true.mp (by decide))

end RequestGuard
