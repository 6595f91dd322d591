import RequestGuard.Proofs.Calendar.Reading

/-!
# Spelled parts

The forms in which the parts of an instant are spelled, each as the text that its reader takes: what
RFC 3339 and RFC 2822 lay down, the form with names, and the digits without an offset. Every reader
gives back the parts its form was spelled from, and what the form does not spell as it stands by
default.
-/

namespace RequestGuard.Calendar

open Text (trimStart trimEnd isBlank)
open Timestamp (padded writeYear writeDate)

namespace Parts

variable (p : Parts)

/-! ## Texts -/

/-- The date in digits. -/
def dateText : List Char :=
  writeDate ⟨p.year, p.month, p.day⟩

/-- The time of day to the minute. -/
def minuteText : List Char :=
  padded 2 p.hour ++ ':' :: padded 2 p.minute

/-- The time of day. -/
def timeText : List Char :=
  p.minuteText ++ ':' :: padded 2 p.second

/-- The form of RFC 2822 up to the offset, the day of the month in at least so many digits. -/
def mailText (weekday : Weekday) (width : Nat) : List Char :=
  weekday.abbreviation.toList ++ ',' :: ' ' :: (padded width p.day ++ ' ' :: ((monthAbbreviation p.month).toList ++
    ' ' :: (writeYear p.year ++ ' ' :: (p.timeText ++ [' ']))))

/-- The form with names up to the offset. -/
def namedText (weekday : Weekday) : List Char :=
  weekday.abbreviation.toList ++ ' ' :: ((monthAbbreviation p.month).toList ++ ' ' :: (padded 2 p.day ++
    ' ' :: (writeYear p.year ++ ' ' :: (p.timeText ++ [' ', 'G', 'M', 'T']))))

/-- The parts fit the digits that the forms have for them. -/
structure Fits : Prop where
  year : 0 ≤ p.year ∧ p.year ≤ 9999
  month : 1 ≤ p.month ∧ p.month ≤ 12
  day : p.day < 100
  hour : p.hour < 100
  minute : p.minute < 100
  second : p.second < 100

variable {p}

theorem Fits.year_lt (hp : p.Fits) : p.year.toNat < 10000 ∧ (p.year.toNat : Int) = p.year := by
  have hyear := hp.year
  omega

theorem Fits.month_lt (hp : p.Fits) : p.month < 100 := by
  have hmonth := hp.month
  omega

theorem Fits.writeYear_eq (hp : p.Fits) : writeYear p.year = padded 4 p.year.toNat :=
  if_pos hp.year

/-- The date in digits, as it is read. -/
theorem Fits.dateText_append (hp : p.Fits) (rest : List Char) :
    p.dateText ++ rest = padded 4 p.year.toNat ++ '-' :: (padded 2 p.month ++ '-' :: (padded 2 p.day ++ rest)) := by
  simp [dateText, writeDate, hp.writeYear_eq]

theorem timeText_append (rest : List Char) :
    p.timeText ++ rest = padded 2 p.hour ++ ':' :: (padded 2 p.minute ++ ':' :: (padded 2 p.second ++ rest)) := by
  simp [timeText, minuteText]

theorem minuteText_append (rest : List Char) :
    p.minuteText ++ rest = padded 2 p.hour ++ ':' :: (padded 2 p.minute ++ rest) := by
  simp [minuteText]

theorem trimEnd_minuteText (cs : List Char) (c : Char) :
    trimEnd (cs ++ c :: p.minuteText) = cs ++ c :: p.minuteText := by
  have hend := trimEnd_padded (cs ++ c :: (padded 2 p.hour ++ [':'])) 2 p.minute
  simpa only [minuteText, List.append_assoc, List.cons_append, List.nil_append] using hend

theorem trimEnd_timeText (cs : List Char) (c : Char) : trimEnd (cs ++ c :: p.timeText) = cs ++ c :: p.timeText := by
  have hend := trimEnd_padded (cs ++ c :: (p.minuteText ++ [':'])) 2 p.second
  simpa only [timeText, List.append_assoc, List.cons_append, List.nil_append] using hend

theorem trimEnd_dateText : trimEnd p.dateText = p.dateText := by
  have hend := trimEnd_padded (writeYear p.year ++ '-' :: padded 2 p.month ++ ['-']) 2 p.day
  simpa only [dateText, writeDate, List.append_assoc, List.cons_append, List.nil_append] using hend

/-! ## RFC 3339 -/

/-- The reader takes date and time as they are spelled, and what follows is for it to refuse or to read. -/
theorem Fits.rfc3339Parts?_eq (hp : p.Fits) {separator : Char} (hsep : separator = 'T' ∨ separator = ' ')
    (rest : List Char) :
    rfc3339Parts? (p.dateText ++ separator :: (p.timeText ++ rest)) =
      (optionalFraction? rest).bind fun (nano, cs) => (zuluOrOffset? cs).map fun (offset, cs) =>
        ({ p with weekday := none, nano := nano, offset := offset }, cs) := by
  have hseparator : ∀ cs, dateTimeSeparator? (separator :: cs) = some cs := by
    intro cs
    rcases hsep with rfl | rfl <;> rfl
  obtain ⟨hyear, hcast⟩ := hp.year_lt
  rw [hp.dateText_append]
  simp only [rfc3339Parts?, numeral?_four hyear le_rfl, char?_cons, numeral?_two hp.month_lt le_rfl,
    numeral?_two hp.day le_rfl, hseparator, timeText_append, numeral?_two hp.hour le_rfl,
    numeral?_two hp.minute le_rfl, numeral?_two hp.second le_rfl, Option.bind_eq_bind, Option.bind_some, hcast]
  simp only [Option.map_eq_bind, Function.comp_def]

theorem Fits.rfc3339Parts?_read (hp : p.Fits) {separator : Char} (hsep : separator = 'T' ∨ separator = ' ')
    {rest cs : List Char} {nano : Nat} {offset : Int} (hfraction : optionalFraction? rest = some (nano, cs))
    (hzone : zuluOrOffset? cs = some (offset, [])) :
    rfc3339Parts? (p.dateText ++ separator :: (p.timeText ++ rest)) =
      some ({ p with weekday := none, nano := nano, offset := offset }, []) := by
  rw [hp.rfc3339Parts?_eq hsep, hfraction, Option.bind_some]
  simp only [hzone, Option.map_some]

/-- Without an offset there is no such text. -/
theorem Fits.rfc3339Parts?_time (hp : p.Fits) {separator : Char} (hsep : separator = 'T' ∨ separator = ' ') :
    rfc3339Parts? (p.dateText ++ separator :: p.timeText) = none := by
  have hnone := hp.rfc3339Parts?_eq hsep []
  rw [List.append_nil] at hnone
  exact hnone

/-- Without seconds there is none either. -/
theorem Fits.rfc3339Parts?_minute (hp : p.Fits) : rfc3339Parts? (p.dateText ++ 'T' :: p.minuteText) = none := by
  have hseparator : ∀ cs, dateTimeSeparator? ('T' :: cs) = some cs := fun _ => rfl
  have hminute : numeral? 2 2 (padded 2 p.minute) = some (p.minute, []) := by
    simpa using numeral?_two hp.minute le_rfl []
  rw [hp.dateText_append]
  simp only [rfc3339Parts?, numeral?_four hp.year_lt.1 le_rfl, char?_cons, numeral?_two hp.month_lt le_rfl,
    numeral?_two hp.day le_rfl, hseparator, minuteText, numeral?_two hp.hour le_rfl, hminute, Option.bind_eq_bind,
    Option.bind_some]
  rfl

/-- Nor without a time of day. -/
theorem Fits.rfc3339Parts?_date (hp : p.Fits) : rfc3339Parts? p.dateText = none := by
  rw [← List.append_nil p.dateText, hp.dateText_append]
  simp only [rfc3339Parts?, numeral?_four hp.year_lt.1 le_rfl, char?_cons, numeral?_two hp.month_lt le_rfl,
    numeral?_two hp.day le_rfl, Option.bind_eq_bind, Option.bind_some]
  rfl

/-! ## RFC 2822 -/

theorem Fits.rfc2822Parts?_mailText (hp : p.Fits) (weekday : Weekday) {width : Nat}
    (hwidth : width = 1 ∨ width = 2) {minutes : Int} (h : minutes.natAbs < 1440) :
    rfc2822Parts? (p.mailText weekday width ++ writeOffset [] minutes) =
      some ({ p with weekday := some weekday, nano := 0, offset := minutes * 60 }, []) := by
  obtain ⟨hyear, hcast⟩ := hp.year_lt
  have hday : ∀ rest, numeral? 1 2 (padded width p.day ++ ' ' :: rest) = some (p.day, ' ' :: rest) := fun rest =>
    numeral?_padded hp.day (by decide) (by omega) (by omega) (.inr (digitsEnd_cons (by decide) _))
  have hoffset : mailOffset? (writeOffset [] minutes) = some (minutes * 60, []) := by
    simpa using mailOffset?_write h []
  have hweekday : ∀ rest, optionalWeekday? (weekday.abbreviation.toList ++ ',' :: rest) = some (some weekday, rest) := by
    intro rest
    simp only [optionalWeekday?, named?_weekday, char?_cons, Option.map_some]
  have hcolon : ∀ rest, trimStart (':' :: rest) = ':' :: rest := fun rest =>
    Text.trimStart_cons_of_not_blank (by decide) rest
  have hsecond : ∀ rest, optionalSecond? (':' :: (padded 2 p.second ++ rest)) = some (p.second, rest) := by
    intro rest
    rw [optionalSecond?, hcolon]
    exact numeral?_two hp.second le_rfl rest
  have hgap : trimStart (writeOffset [] minutes) = writeOffset [] minutes := by
    simpa using trimStart_writeOffset [] minutes []
  -- the text as a chain of its parts, then the date of it and then the time
  simp only [mailText, hp.writeYear_eq, List.append_assoc, List.cons_append, timeText_append, List.nil_append]
  simp only [rfc2822Parts?, trimStart_weekday, hweekday, Option.bind_eq_bind, Option.bind_some, trimStart_space,
    trimStart_padded, hday, blanks?_cons, trimStart_month hp.month, named?_month hp.month,
    mailYear?_padded hyear]
  simp only [numeral?_two hp.hour le_rfl, hcolon, char?_cons, Option.bind_some, numeral?_two hp.minute le_rfl,
    trimStart_padded, hsecond, blanks?_cons, hgap, hoffset, hcast]
  rfl

/-! ## Patterns -/

variable {q : Parts} {items : List Item}

theorem readItems?_cons {item : Item} {q' : Parts} {cs cs' : List Char} (h : item.read? q cs = some (q', cs')) :
    readItems? q cs (item :: items) = readItems? q' cs' items := by
  rw [readItems?, h]

theorem readItems?_blanks (cs : List Char) :
    readItems? q cs (.blanks :: items) = readItems? q (trimStart cs) items :=
  rfl

theorem readItems?_cons_none {item : Item} {cs : List Char} (h : item.read? q cs = none) :
    readItems? q cs (item :: items) = none := by
  rw [readItems?, h]

theorem ofPattern?_of_readItems? {cs : List Char} (h : readItems? {} cs items = some (q, [])) :
    ofPattern? items cs = q.instant? := by
  rw [ofPattern?, h]

theorem ofPattern?_eq_none {cs : List Char} (h : readItems? {} cs items = none) : ofPattern? items cs = none := by
  rw [ofPattern?, h]

theorem Fits.readItems?_date (hp : p.Fits) (rest : List Char) :
    readItems? q (p.dateText ++ rest) (datePattern ++ items) =
      readItems? { q with year := p.year, month := p.month, day := p.day } rest items := by
  obtain ⟨hyear, hcast⟩ := hp.year_lt
  have hdash : ∀ cs, literal? "-".toList ('-' :: cs) = some cs := fun _ => rfl
  rw [hp.dateText_append]
  simp only [datePattern, List.cons_append, List.nil_append, readItems?, Item.read?, year?_padded hyear, hdash,
    pair?_padded hp.month_lt, pair?_padded hp.day, Option.map_some, hcast]

theorem Fits.readItems?_minute (hp : p.Fits) (rest : List Char) :
    readItems? q (p.minuteText ++ rest) (.hour :: .text ":" :: .minute :: items) =
      readItems? { q with hour := p.hour, minute := p.minute } rest items := by
  have hcolon : ∀ cs, literal? ":".toList (':' :: cs) = some cs := fun _ => rfl
  simp only [minuteText_append, readItems?, Item.read?, pair?_padded hp.hour, pair?_padded hp.minute, hcolon,
    Option.map_some]

theorem Fits.readItems?_time (hp : p.Fits) (rest : List Char) :
    readItems? q (p.timeText ++ rest) (.hour :: .text ":" :: .minute :: .text ":" :: .second :: items) =
      readItems? { q with hour := p.hour, minute := p.minute, second := p.second } rest items := by
  have hcolon : ∀ cs, literal? ":".toList (':' :: cs) = some cs := fun _ => rfl
  rw [timeText, List.append_assoc, hp.readItems?_minute]
  simp only [List.cons_append, readItems?, Item.read?, hcolon, pair?_padded hp.second, Option.map_some]

theorem Fits.readItems?_names (hp : p.Fits) (weekday : Weekday) (rest : List Char) :
    readItems? q (weekday.abbreviation.toList ++ ' ' :: ((monthAbbreviation p.month).toList ++ ' ' ::
        (padded 2 p.day ++ ' ' :: (writeYear p.year ++ ' ' :: rest))))
      (.weekdayName :: .blanks :: .monthName :: .blanks :: .day :: .blanks :: .year :: .blanks :: items) =
      readItems? { q with weekday := some weekday, month := p.month, day := p.day, year := p.year }
        (trimStart rest) items := by
  obtain ⟨hyear, hcast⟩ := hp.year_lt
  simp only [hp.writeYear_eq, readItems?, Item.read?, named?_weekday, Option.map_some, trimStart_space,
    trimStart_month hp.month, named?_month hp.month, trimStart_padded, pair?_padded hp.day, year?_padded hyear, hcast]

theorem Fits.ofPattern?_namedText (hp : p.Fits) (weekday : Weekday) {minutes : Int} (h : minutes.natAbs < 1440) :
    ofPattern? namedPattern (p.namedText weekday ++ writeOffset [] minutes) =
      ({ p with weekday := some weekday, nano := 0, offset := minutes * 60 } : Parts).instant? := by
  have htime : ∀ rest, trimStart (p.timeText ++ rest) = p.timeText ++ rest := by
    intro rest
    rw [timeText_append, trimStart_padded]
  have hgmt : ∀ cs, literal? "GMT".toList ('G' :: 'M' :: 'T' :: cs) = some cs := fun _ => rfl
  have hgap : ∀ cs, trimStart (' ' :: 'G' :: cs) = 'G' :: cs := fun _ => rfl
  have hread : readItems? {} (p.namedText weekday ++ writeOffset [] minutes) namedPattern =
      some ({ p with weekday := some weekday, nano := 0, offset := minutes * 60 }, []) := by
    simp only [namedText, List.append_assoc, List.cons_append, List.nil_append]
    rw [namedPattern, hp.readItems?_names, htime, hp.readItems?_time,
      readItems?_blanks, hgap, readItems?_cons (by rw [Item.read?, hgmt, Option.map_some]),
      readItems?_cons (by simpa using readOffset_write h _ []), readItems?]
  exact ofPattern?_of_readItems? hread

/-! ## Forms without an offset -/

/-- A pattern for the date and more is done with the date when it comes to the rest. -/
theorem Fits.ofPattern?_date (hp : p.Fits) (items : List Item) (rest : List Char) (h : readItems? q rest items = none)
    (hq : q = { year := p.year, month := p.month, day := p.day }) :
    ofPattern? (datePattern ++ items) (p.dateText ++ rest) = none := by
  apply ofPattern?_eq_none
  rw [hp.readItems?_date, ← hq, h]

variable (hp : p.Fits) {i : Instant}
include hp

/-- Date, `T` and time are read by the first of the patterns. -/
theorem Fits.findSome?_time (hi : ({ p with weekday := none, nano := 0, offset := 0 } : Parts).instant? = some i) :
    plainPatterns.findSome? (ofPattern? · (p.dateText ++ 'T' :: p.timeText)) = some i := by
  have hfirst : ofPattern? (datePattern ++ [.text "T", .hour, .text ":", .minute, .text ":", .second, .fraction])
      (p.dateText ++ 'T' :: p.timeText) = some i := by
    rw [← hi]
    apply ofPattern?_of_readItems?
    rw [hp.readItems?_date, readItems?_cons (rfl : Item.read? _ ('T' :: p.timeText) _ = some (_, p.timeText)),
      ← List.append_nil p.timeText, hp.readItems?_time]
    rfl
  simp only [plainPatterns, List.findSome?_cons, hfirst]

/-- A blank in place of the `T` leaves the text to the fourth pattern. -/
theorem Fits.findSome?_blank (hi : ({ p with weekday := none, nano := 0, offset := 0 } : Parts).instant? = some i) :
    plainPatterns.findSome? (ofPattern? · (p.dateText ++ ' ' :: p.timeText)) = some i := by
  have hletter : ∀ items, ofPattern? (datePattern ++ .text "T" :: items) (p.dateText ++ ' ' :: p.timeText) = none :=
    fun items => hp.ofPattern?_date _ _ rfl rfl
  have hfourth : ofPattern? (datePattern ++ [.blanks, .hour, .text ":", .minute, .text ":", .second, .fraction])
      (p.dateText ++ ' ' :: p.timeText) = some i := by
    rw [← hi]
    apply ofPattern?_of_readItems?
    rw [hp.readItems?_date, readItems?_blanks, trimStart_space, ← List.append_nil p.timeText, timeText_append,
      trimStart_padded, ← timeText_append, hp.readItems?_time]
    rfl
  simp only [plainPatterns, List.findSome?_cons, hletter, hfourth]

/-- Without seconds the text is left to the third pattern. -/
theorem Fits.findSome?_minute (hzero : p.second = 0)
    (hi : ({ p with weekday := none, nano := 0, offset := 0 } : Parts).instant? = some i) :
    plainPatterns.findSome? (ofPattern? · (p.dateText ++ 'T' :: p.minuteText)) = some i := by
  have htime : ∀ (q : Parts) items, readItems? q ('T' :: p.minuteText)
      (.text "T" :: .hour :: .text ":" :: .minute :: items) =
        readItems? { q with hour := p.hour, minute := p.minute } [] items := by
    intro q items
    rw [readItems?_cons (rfl : Item.read? _ ('T' :: p.minuteText) _ = some (_, p.minuteText)),
      ← List.append_nil p.minuteText, hp.readItems?_minute]
  have hcolon : ∀ items, ofPattern? (datePattern ++ .text "T" :: .hour :: .text ":" :: .minute :: .text ":" :: items)
      (p.dateText ++ 'T' :: p.minuteText) = none :=
    fun items => hp.ofPattern?_date _ _ ((htime _ _).trans rfl) rfl
  have hthird : ofPattern? (datePattern ++ [.text "T", .hour, .text ":", .minute])
      (p.dateText ++ 'T' :: p.minuteText) = some i := by
    rw [← hi]
    apply ofPattern?_of_readItems?
    rw [hp.readItems?_date, htime, hzero]
    rfl
  simp only [plainPatterns, List.findSome?_cons, hcolon, hthird]

/-- The date alone is left to the last pattern. -/
theorem Fits.findSome?_date (hzero : p.hour = 0 ∧ p.minute = 0 ∧ p.second = 0)
    (hi : ({ p with weekday := none, nano := 0, offset := 0 } : Parts).instant? = some i) :
    plainPatterns.findSome? (ofPattern? · p.dateText) = some i := by
  obtain ⟨hhour, hminute, hsecond⟩ := hzero
  have hletter : ∀ items, ofPattern? (datePattern ++ .text "T" :: items) p.dateText = none := by
    intro items
    have hnone := hp.ofPattern?_date (.text "T" :: items) [] rfl rfl
    rwa [List.append_nil] at hnone
  have hdigit : ∀ items, ofPattern? (datePattern ++ .blanks :: .hour :: items) p.dateText = none := by
    intro items
    have hnone := hp.ofPattern?_date (.blanks :: .hour :: items) [] rfl rfl
    rwa [List.append_nil] at hnone
  have hlast : ofPattern? datePattern p.dateText = some i := by
    rw [← hi]
    apply ofPattern?_of_readItems?
    rw [← List.append_nil datePattern, ← List.append_nil p.dateText, hp.readItems?_date, hhour, hminute, hsecond]
    rfl
  simp only [plainPatterns, List.findSome?_cons, hletter, hdigit, hlast]

end Parts

end RequestGuard.Calendar
