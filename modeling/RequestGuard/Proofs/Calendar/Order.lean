import RequestGuard.Proofs.Calendar.Spelling

/-!
# The readers in turn

The readers of dates are tried one after another, so a form is read by its own reader only where all
the earlier ones refuse it. What they look at first keeps the forms apart: a date in digits has a
hyphen where a number has none and a third digit where a day of the month has none, and the forms
with names differ by the comma behind the weekday.
-/

namespace RequestGuard

open Timestamp (padded)

/-! ## No numbers -/

namespace Numeral

/-- A hyphen behind digits belongs to no number. -/
theorem binary64?_hyphen {d : Char} {ds : List Char} (hds : ∀ c ∈ d :: ds, c.isDigit = true) (rest : List Char) :
    binary64? (d :: ds ++ '-' :: rest) = none := by
  have hd : d.isDigit = true := hds d List.mem_cons_self
  have hend : Calendar.DigitsEnd ('-' :: rest) := Calendar.digitsEnd_cons (by decide) rest
  have hdecimal : decimal? false (d :: ds ++ '-' :: rest) = none := by
    simp only [decimal?, Calendar.takeWhile_run hds hend, Calendar.dropWhile_run hds hend]
    simp [exponent?]
  rw [binary64?, List.cons_append, splitSign_cons (ne_sign_of_isDigit hd)]
  simp only [word?_of_isDigit hd, Option.none_or]
  exact hdecimal

/-- No number begins with such a letter. -/
theorem binary64?_letter {c : Char} (hmark : c.isDigit = false ∧ c ≠ '.') (hsign : c ≠ '+' ∧ c ≠ '-')
    (hword : c.toLower ≠ 'i' ∧ c.toLower ≠ 'n') (cs : List Char) : binary64? (c :: cs) = none := by
  rw [binary64?, splitSign_cons hsign]
  simp only [word?_eq_none hword, Option.none_or]
  simp [decimal?, hmark.1, hmark.2]

end Numeral

namespace Calendar

open Text (trim trimStart trimEnd isBlank)

/-! ## Dates in digits -/

namespace Parts

variable {p : Parts}

theorem Fits.binary64?_dateText (hp : p.Fits) (rest : List Char) : Numeral.binary64? (p.dateText ++ rest) = none := by
  obtain ⟨c, cs, hcons, -⟩ := exists_padded_eq_cons 4 p.year.toNat
  have hdigits : ∀ x ∈ c :: cs, x.isDigit = true := hcons ▸ isDigit_of_mem_padded
  rw [hp.dateText_append, hcons]
  exact Numeral.binary64?_hyphen hdigits _

/-- What would be the day of the month has a third digit behind it. -/
theorem Fits.ofRfc2822?_dateText (hp : p.Fits) (rest : List Char) : ofRfc2822? (p.dateText ++ rest) = none := by
  have hlength : (padded 4 p.year.toNat).length = 4 := length_padded_of_lt hp.year_lt.1 (by decide)
  have hdigits : ∀ c ∈ padded 4 p.year.toNat, c.isDigit = true := isDigit_of_mem_padded
  have hstart := trimStart_padded 4 p.year.toNat
  rw [hp.dateText_append]
  generalize '-' :: (padded 2 p.month ++ '-' :: (padded 2 p.day ++ rest)) = behind
  match hyear : padded 4 p.year.toNat with
  | [a, b, c, d] =>
    rw [hyear] at hdigits hstart
    simp only [List.forall_mem_cons] at hdigits
    obtain ⟨ha, hb, hc, hd, -⟩ := hdigits
    have hname : optionalWeekday? ([a, b, c, d] ++ behind) = some (none, [a, b, c, d] ++ behind) := by
      rw [optionalWeekday?, List.cons_append, named?_weekday_eq_none ha]
    -- the reader stops after two digits, whatever comes next
    have hpair : numeral? 1 2 ([a, b] ++ c :: d :: behind) = some (Numeral.ofRun [a, b], c :: d :: behind) :=
      numeral?_run (by simp [ha, hb]) (by simp) (by simp) (.inl rfl)
    have hday : numeral? 1 2 ([a, b, c, d] ++ behind) = some (Numeral.ofRun [a, b], c :: d :: behind) := hpair
    have hblank : blanks? (c :: d :: behind) = none := by
      simp [blanks?, not_isBlank_of_isDigit hc]
    simp only [ofRfc2822?, rfc2822Parts?, hstart, hname, hday, hblank, Option.bind_eq_bind, Option.bind_some,
      Option.bind_none]
  | [] | [_] | [_, _] | [_, _, _] | _ :: _ :: _ :: _ :: _ :: _ =>
    rw [hyear] at hlength
    simp at hlength

end Parts

/-! ## Forms with names -/

theorem binary64?_weekday (d : Weekday) (rest : List Char) :
    Numeral.binary64? (d.abbreviation.toList ++ rest) = none := by
  cases d <;> exact Numeral.binary64?_letter (by decide) (by decide) (by decide) _

theorem ofRfc3339?_weekday (d : Weekday) (rest : List Char) : ofRfc3339? (d.abbreviation.toList ++ rest) = none := by
  have hyear : numeral? 4 4 (d.abbreviation.toList ++ rest) = none := by
    cases d <;> exact numeral?_eq_none (by decide) (digitsEnd_cons (by decide) _)
  rw [ofRfc3339?, rfc3339Parts?, hyear]
  rfl

/-- A weekday without a comma begins no text of RFC 2822. -/
theorem ofRfc2822?_weekday (d : Weekday) (rest : List Char) :
    ofRfc2822? (d.abbreviation.toList ++ ' ' :: rest) = none := by
  have hname : optionalWeekday? (d.abbreviation.toList ++ ' ' :: rest) = none := by
    rw [optionalWeekday?, named?_weekday]
    rfl
  rw [ofRfc2822?, rfc2822Parts?, trimStart_weekday, hname]
  rfl

/-! ## Names of zones -/

theorem withoutZoneName_cons {c : Char} {cs : List Char} (h : c = ' ' → cs.head? ≠ some '(') :
    withoutZoneName (c :: cs) = c :: withoutZoneName cs := by
  rw [withoutZoneName]
  rintro tail rfl rfl
  exact h rfl rfl

theorem withoutZoneName_of_not_mem : ∀ {cs : List Char}, '(' ∉ cs → withoutZoneName cs = cs
  | [], _ => rfl
  | c :: cs, h => by
    have hrest : '(' ∉ cs := fun hmem => h (List.mem_cons_of_mem c hmem)
    rw [withoutZoneName_cons fun _ hhead => hrest (List.mem_of_head? hhead), withoutZoneName_of_not_mem hrest]

/-- What follows the first parenthesis goes, and the blank before it. -/
theorem withoutZoneName_append (zone : List Char) :
    ∀ {cs : List Char}, '(' ∉ cs → withoutZoneName (cs ++ ' ' :: '(' :: zone) = cs
  | [], _ => rfl
  | c :: cs, h => by
    have hrest : '(' ∉ cs := fun hmem => h (List.mem_cons_of_mem c hmem)
    have hhead : (cs ++ ' ' :: '(' :: zone).head? ≠ some '(' := by
      cases cs with
      | nil => simp
      | cons d ds =>
        intro heq
        cases heq
        exact hrest List.mem_cons_self
    rw [List.cons_append, withoutZoneName_cons fun _ => hhead, withoutZoneName_append zone hrest]

/-! ## Each form by its own reader -/

/-- Without its outer blanks the text is no number, and the readers of dates take it for the instant. -/
def IsTakenFor (cs : List Char) (i : Instant) : Prop :=
  Numeral.binary64? (trim cs) = none ∧ ofDateText? (trim cs) = some i

theorem isTakenFor_of_trimmed {cs rest : List Char} {i : Instant} (htrim : trim cs = rest)
    (hnumber : Numeral.binary64? rest = none) (hdate : ofDateText? rest = some i) : IsTakenFor cs i := by
  subst htrim
  exact ⟨hnumber, hdate⟩

/-- A text denotes what it is taken for, with blanks around it or without. -/
theorem IsTakenFor.ofText? {cs pre post : List Char} {i : Instant} (h : IsTakenFor cs i)
    (hpre : ∀ c ∈ pre, isBlank c = true) (hpost : ∀ c ∈ post, isBlank c = true) :
    Instant.ofText? (String.ofList (pre ++ cs ++ post)) = some i := by
  rw [Instant.ofText?, String.toList_ofList, List.append_assoc, Text.trim_append_of_blank hpre hpost]
  simp only [h.1, h.2]

namespace Parts

variable {p : Parts} {i : Instant}

theorem Fits.trim_dateText (hp : p.Fits) {rest : List Char}
    (hend : trimEnd (p.dateText ++ rest) = p.dateText ++ rest) :
    trim (p.dateText ++ rest) = p.dateText ++ rest := by
  have hstart : trimStart (p.dateText ++ rest) = p.dateText ++ rest := by
    rw [hp.dateText_append, trimStart_padded]
  rw [trim, hstart, hend]

/-- A text of RFC 3339 is taken by the first reader. -/
theorem Fits.isTakenFor_rfc3339 (hp : p.Fits) {rest cs : List Char} {nano : Nat} {offset : Int}
    (hfraction : optionalFraction? rest = some (nano, cs)) (hzone : zuluOrOffset? cs = some (offset, []))
    (hend : trimEnd (p.dateText ++ 'T' :: p.timeText ++ rest) = p.dateText ++ 'T' :: p.timeText ++ rest)
    (hi : ({ p with weekday := none, nano := nano, offset := offset } : Parts).instant? = some i) :
    IsTakenFor (p.dateText ++ 'T' :: (p.timeText ++ rest)) i := by
  have hread : ofRfc3339? (p.dateText ++ 'T' :: (p.timeText ++ rest)) = some i := by
    rw [ofRfc3339?, hp.rfc3339Parts?_read (.inl rfl) hfraction hzone]
    exact hi
  rw [List.append_assoc, List.cons_append] at hend
  refine isTakenFor_of_trimmed (hp.trim_dateText hend) (hp.binary64?_dateText _) ?_
  rw [ofDateText?, hread, Option.some_or]

theorem Fits.isTakenFor_mailText (hp : p.Fits) (weekday : Weekday) {width : Nat} (hwidth : width = 1 ∨ width = 2)
    {minutes : Int} (h : minutes.natAbs < 1440)
    (hi : ({ p with weekday := some weekday, nano := 0, offset := minutes * 60 } : Parts).instant? = some i) :
    IsTakenFor (p.mailText weekday width ++ writeOffset [] minutes) i := by
  have hread : ofRfc2822? (p.mailText weekday width ++ writeOffset [] minutes) = some i := by
    rw [ofRfc2822?, hp.rfc2822Parts?_mailText weekday hwidth h]
    exact hi
  have hend := trimEnd_writeOffset (p.mailText weekday width) [] minutes
  rw [mailText, List.append_assoc] at hread hend ⊢
  refine isTakenFor_of_trimmed (by rw [trim, trimStart_weekday, hend]) (binary64?_weekday weekday _) ?_
  rw [ofDateText?, ofRfc3339?_weekday, hread, Option.none_or, Option.some_or]

theorem not_mem_padded {c : Char} (h : c.isDigit = false) (width n : Nat) : c ∉ padded width n := by
  intro hmem
  rw [isDigit_of_mem_padded c hmem] at h
  exact absurd h (by decide)

theorem Fits.parenthesis_not_mem (hp : p.Fits) (weekday : Weekday) (minutes : Int) :
    '(' ∉ p.namedText weekday ++ writeOffset [] minutes := by
  have hdigit (width n : Nat) : '(' ∉ padded width n := not_mem_padded (by decide) width n
  have hweekday : '(' ∉ weekday.abbreviation.toList := by cases weekday <;> decide +kernel
  have hmonths : ∀ name ∈ monthAbbreviations, '(' ∉ name.toList := by decide +kernel
  have hmonth : '(' ∉ (monthAbbreviation p.month).toList := hmonths _ (monthAbbreviation_mem hp.month)
  have hsign : '(' ≠ if minutes < 0 then '-' else '+' := by split <;> decide
  simp [namedText, timeText, minuteText, writeOffset, hp.writeYear_eq, hdigit, hweekday, hmonth, hsign]

/-- The form with names is taken by the third reader, with what that one is not shown behind it. -/
theorem Fits.ofDateText?_namedText (hp : p.Fits) (weekday : Weekday) {minutes : Int} (h : minutes.natAbs < 1440)
    (hi : ({ p with weekday := some weekday, nano := 0, offset := minutes * 60 } : Parts).instant? = some i)
    {behind : List Char} (hbehind : withoutZoneName (p.namedText weekday ++ writeOffset [] minutes ++ behind) =
      p.namedText weekday ++ writeOffset [] minutes) :
    ofDateText? (p.namedText weekday ++ writeOffset [] minutes ++ behind) = some i := by
  have hread : ofPattern? namedPattern (withoutZoneName (p.namedText weekday ++ writeOffset [] minutes ++ behind)) =
      some i := by
    rw [hbehind, hp.ofPattern?_namedText weekday h, hi]
  rw [namedText, List.append_assoc, List.append_assoc, List.cons_append] at hread ⊢
  rw [ofDateText?, ofRfc3339?_weekday, ofRfc2822?_weekday, hread, Option.none_or, Option.none_or, Option.some_or]

theorem isTakenFor_of_namedText (weekday : Weekday) {behind rest : List Char}
    (hend : trimEnd (p.namedText weekday ++ behind) = p.namedText weekday ++ rest)
    (hdate : ofDateText? (p.namedText weekday ++ rest) = some i) : IsTakenFor (p.namedText weekday ++ behind) i := by
  rw [namedText, List.append_assoc] at hend hdate ⊢
  rw [List.append_assoc] at hend
  exact isTakenFor_of_trimmed (by rw [trim, trimStart_weekday, hend]) (binary64?_weekday weekday _) hdate

theorem Fits.isTakenFor_namedText (hp : p.Fits) (weekday : Weekday) {minutes : Int} (h : minutes.natAbs < 1440)
    (hi : ({ p with weekday := some weekday, nano := 0, offset := minutes * 60 } : Parts).instant? = some i) :
    IsTakenFor (p.namedText weekday ++ writeOffset [] minutes) i := by
  have hall : withoutZoneName (p.namedText weekday ++ writeOffset [] minutes ++ []) =
      p.namedText weekday ++ writeOffset [] minutes := by
    rw [List.append_nil, withoutZoneName_of_not_mem (hp.parenthesis_not_mem weekday minutes)]
  have hdate := hp.ofDateText?_namedText weekday h hi hall
  rw [List.append_nil] at hdate
  exact isTakenFor_of_namedText weekday (trimEnd_writeOffset _ [] minutes) hdate

/-- A name of the zone makes no difference, whatever text it is. -/
theorem Fits.isTakenFor_namedZone (hp : p.Fits) (weekday : Weekday) {minutes : Int} (h : minutes.natAbs < 1440)
    (hi : ({ p with weekday := some weekday, nano := 0, offset := minutes * 60 } : Parts).instant? = some i)
    (zone : List Char) : IsTakenFor (p.namedText weekday ++ writeOffset [] minutes ++ ' ' :: '(' :: zone) i := by
  have hdate := hp.ofDateText?_namedText weekday h hi
    (withoutZoneName_append (trimEnd zone) (hp.parenthesis_not_mem weekday minutes))
  have hend : trimEnd (p.namedText weekday ++ (writeOffset [] minutes ++ ' ' :: '(' :: zone)) =
      p.namedText weekday ++ (writeOffset [] minutes ++ ' ' :: '(' :: trimEnd zone) := by
    have hstop := Text.trimEnd_append_cons (show isBlank '(' = false by decide)
      (p.namedText weekday ++ (writeOffset [] minutes ++ [' '])) zone
    simpa only [List.append_assoc, List.cons_append, List.nil_append] using hstop
  rw [List.append_assoc] at hdate ⊢
  exact isTakenFor_of_namedText weekday hend hdate

/-- A date in digits that the first reader refuses is left to the forms without an offset. -/
theorem Fits.isTakenFor_plain (hp : p.Fits) {rest : List Char} (h : rfc3339Parts? (p.dateText ++ rest) = none)
    (hend : trimEnd (p.dateText ++ rest) = p.dateText ++ rest)
    (hi : plainPatterns.findSome? (ofPattern? · (p.dateText ++ rest)) = some i) : IsTakenFor (p.dateText ++ rest) i := by
  have hfirst : ofRfc3339? (p.dateText ++ rest) = none := by rw [ofRfc3339?, h]
  have hnamed : ofPattern? namedPattern (withoutZoneName (p.dateText ++ rest)) = none := by
    obtain ⟨c, cs, hcons, hdigit⟩ := exists_padded_eq_cons 4 p.year.toNat
    have hblank : c ≠ ' ' := by
      rintro rfl
      exact absurd hdigit (by decide)
    rw [hp.dateText_append, hcons, List.cons_append, withoutZoneName_cons fun heq => absurd heq hblank]
    apply ofPattern?_eq_none
    apply readItems?_cons_none
    rw [Item.read?, named?_weekday_eq_none hdigit, Option.map_none]
  refine isTakenFor_of_trimmed (hp.trim_dateText hend) (hp.binary64?_dateText _) ?_
  rw [ofDateText?, hfirst, hp.ofRfc2822?_dateText, hnamed, Option.none_or, Option.none_or, Option.none_or, hi]

end Parts

end Calendar

end RequestGuard
