import Mathlib.Tactic.NormNum
import RequestGuard.Calendar.Spelling
import RequestGuard.Calendar.Timestamp

/-!
# Readers on what is written

What each reader of a part makes of the text that the part is written as, whatever follows it: it
gives the part and leaves what follows. A number is read from its digits when the reader's bound or
the next character ends the run (`numeral?_padded`); names and offsets end of themselves.
-/

namespace RequestGuard

/-- The nanoseconds that are written. -/
def Timestamp.Precision.keep : Precision → Nat → Nat
  | millis, nano => nano / 1000000 * 1000000
  | exact, nano => nano

/-- The short name of a day. -/
def Calendar.Weekday.abbreviation : Weekday → String
  | sunday => "Sun"
  | monday => "Mon"
  | tuesday => "Tue"
  | wednesday => "Wed"
  | thursday => "Thu"
  | friday => "Fri"
  | saturday => "Sat"

namespace Calendar

open Text (trimStart trimEnd isBlank)
open Timestamp (padded writeFraction Precision)

/-! ## Digits -/

/-- Nothing follows that could belong to a run of digits. -/
def DigitsEnd (rest : List Char) : Prop :=
  ∀ c ∈ rest.head?, c.isDigit = false

theorem digitsEnd_cons {c : Char} (h : c.isDigit = false) (cs : List Char) : DigitsEnd (c :: cs) := by
  simpa [DigitsEnd] using h

theorem takeWhile_run {ds rest : List Char} (hds : ∀ c ∈ ds, c.isDigit = true) (hend : DigitsEnd rest) :
    (ds ++ rest).takeWhile Char.isDigit = ds := by
  have hnone : rest.takeWhile Char.isDigit = [] := by
    cases rest with
    | nil => rfl
    | cons c cs => simp [hend c rfl]
  rw [List.takeWhile_append_of_pos hds, hnone, List.append_nil]

theorem dropWhile_run {ds rest : List Char} (hds : ∀ c ∈ ds, c.isDigit = true) (hend : DigitsEnd rest) :
    (ds ++ rest).dropWhile Char.isDigit = rest := by
  rw [List.dropWhile_append_of_pos hds]
  cases rest with
  | nil => rfl
  | cons c cs => simp [hend c rfl]

theorem not_isBlank_of_isDigit {c : Char} (h : c.isDigit = true) : isBlank c = false := by
  have hrange : 48 ≤ c.toNat ∧ c.toNat ≤ 57 := Char.isDigit_iff_toNat.mp h
  exact Text.not_isBlank_of_visible (by omega) (by omega)

theorem isDigit_of_mem_padded {width n : Nat} : ∀ c ∈ padded width n, c.isDigit = true := by
  intro c h
  rcases List.mem_append.mp h with h | h
  · rw [List.eq_of_mem_replicate h]
    decide
  · exact Nat.isDigit_of_mem_toDigits (by decide) (by decide) h

theorem length_padded (width n : Nat) :
    (padded width n).length = max width (Nat.toDigits 10 n).length := by
  simp only [padded, List.length_append, List.length_replicate]
  omega

theorem length_padded_of_lt {width n : Nat} (hn : n < 10 ^ width) (hpos : 0 < width) :
    (padded width n).length = width := by
  have hdigits : (Nat.toDigits 10 n).length ≤ width := (Nat.length_toDigits_le_iff (by decide) hpos).mpr hn
  rw [length_padded]
  omega

theorem ofRun_padded (width n : Nat) : Numeral.ofRun (padded width n) = n := by
  rw [Numeral.ofRun_eq_ofDigitChars, padded, Nat.ofDigitChars_append, Nat.ofDigitChars_replicate_zero,
    Nat.mul_zero, Nat.ofDigitChars_ten_toDigits]

/-- What is written in digits begins with one. -/
theorem exists_padded_eq_cons (width n : Nat) : ∃ c cs, padded width n = c :: cs ∧ c.isDigit = true := by
  cases hpadded : padded width n with
  | nil =>
    have hlength := length_padded width n
    have hpos : 0 < (Nat.toDigits 10 n).length := Nat.length_toDigits_pos
    rw [hpadded, List.length_nil] at hlength
    omega
  | cons c cs => exact ⟨c, cs, rfl, isDigit_of_mem_padded c (by rw [hpadded]; exact List.mem_cons_self)⟩

theorem trimStart_padded (width n : Nat) (rest : List Char) :
    trimStart (padded width n ++ rest) = padded width n ++ rest := by
  obtain ⟨c, cs, hcons, hdigit⟩ := exists_padded_eq_cons width n
  rw [hcons, List.cons_append, Text.trimStart_cons_of_not_blank (not_isBlank_of_isDigit hdigit)]

theorem trimEnd_padded (cs : List Char) (width n : Nat) : trimEnd (cs ++ padded width n) = cs ++ padded width n := by
  obtain ⟨c, ds, hcons, -⟩ := exists_padded_eq_cons width n
  have hne : padded width n ≠ [] := by
    rw [hcons]
    exact List.cons_ne_nil c ds
  have hlast : ((padded width n).getLast hne).isDigit = true := isDigit_of_mem_padded _ (List.getLast_mem hne)
  rw [← List.dropLast_concat_getLast hne, ← List.append_assoc,
    Text.trimEnd_append_of_not_blank (not_isBlank_of_isDigit hlast)]

/-! ## Marks and blanks -/

theorem char?_cons (c : Char) (cs : List Char) : char? c (c :: cs) = some cs := by
  simp [char?]

theorem blanks?_cons (cs : List Char) : blanks? (' ' :: cs) = some (trimStart cs) := by
  simp [blanks?, show isBlank ' ' = true by decide]

theorem trimStart_space (cs : List Char) : trimStart (' ' :: cs) = trimStart cs := by
  simp [trimStart, show isBlank ' ' = true by decide]

/-! ## Numbers -/

/-- A run is read to its end where the digits end, or where the reader takes no more. -/
theorem numeral?_run {least most : Nat} {ds rest : List Char} (hds : ∀ c ∈ ds, c.isDigit = true)
    (hleast : least ≤ ds.length) (hmost : ds.length ≤ most)
    (hend : ds.length = most ∨ DigitsEnd rest) :
    numeral? least most (ds ++ rest) = some (Numeral.ofRun ds, rest) := by
  have htaken : ((ds ++ rest).takeWhile Char.isDigit).take most = ds := by
    rcases hend with hfull | hend
    · rw [List.takeWhile_append_of_pos hds, List.take_left' hfull]
    · rw [takeWhile_run hds hend, List.take_of_length_le hmost]
  have henough : ¬ds.length < least := by omega
  simp only [numeral?, htaken, henough, if_false, List.drop_left]

/-- A number is read from its digits. -/
theorem numeral?_padded {least most width n : Nat} {rest : List Char} (hn : n < 10 ^ most)
    (hpos : 0 < most) (hleast : least ≤ width) (hmost : width ≤ most)
    (hend : width = most ∨ DigitsEnd rest) :
    numeral? least most (padded width n ++ rest) = some (n, rest) := by
  have hdigits : (Nat.toDigits 10 n).length ≤ most := (Nat.length_toDigits_le_iff (by decide) hpos).mpr hn
  have hlength := length_padded width n
  rw [numeral?_run isDigit_of_mem_padded (by omega) (by omega) (hend.imp_left fun h => by omega), ofRun_padded]

theorem numeral?_two {least n : Nat} (hn : n < 100) (hleast : least ≤ 2) (rest : List Char) :
    numeral? least 2 (padded 2 n ++ rest) = some (n, rest) :=
  numeral?_padded hn (by decide) hleast le_rfl (.inl rfl)

theorem numeral?_four {least n : Nat} (hn : n < 10000) (hleast : least ≤ 4) (rest : List Char) :
    numeral? least 4 (padded 4 n ++ rest) = some (n, rest) :=
  numeral?_padded hn (by decide) hleast le_rfl (.inl rfl)

theorem pair?_padded {n : Nat} (hn : n < 100) (rest : List Char) :
    pair? (padded 2 n ++ rest) = some (n, rest) := by
  rw [pair?, trimStart_padded, numeral?_two hn (by decide)]

theorem year?_padded {n : Nat} (hn : n < 10000) (rest : List Char) :
    year? (padded 4 n ++ rest) = some ((n : Int), rest) := by
  obtain ⟨c, cs, hcons, hdigit⟩ := exists_padded_eq_cons 4 n
  have hread : numeral? 1 4 (padded 4 n ++ rest) = some (n, rest) := numeral?_four hn (by decide) rest
  rw [year?, trimStart_padded]
  rw [hcons, List.cons_append] at hread ⊢
  split
  · rename_i heq
    cases heq
    exact absurd hdigit (by decide)
  · rename_i heq
    cases heq
    exact absurd hdigit (by decide)
  · rw [hread]
    rfl

/-- A year of four digits stands for itself. -/
theorem mailYear?_padded {n : Nat} (hn : n < 10000) (rest : List Char) :
    mailYear? (padded 4 n ++ ' ' :: rest) = some ((n : Int), ' ' :: rest) := by
  have hlength : (padded 4 n).length = 4 := length_padded_of_lt hn (by decide)
  have hlong : longNumeral? 2 (padded 4 n ++ ' ' :: rest) = some (n, ' ' :: rest) := by
    have htotal : (padded 4 n ++ ' ' :: rest).length = 4 + (rest.length + 1) := by
      rw [List.length_append, hlength, List.length_cons]
    have hbound : n < 10 ^ (padded 4 n ++ ' ' :: rest).length := by
      calc n < 10000 := hn
        _ = 10 ^ 4 := by norm_num
        _ ≤ 10 ^ (padded 4 n ++ ' ' :: rest).length := Nat.pow_le_pow_right (by decide) (by omega)
    exact numeral?_padded hbound (by omega) (by decide) (by omega) (.inr (digitsEnd_cons (by decide) _))
  have hcount : (padded 4 n ++ ' ' :: rest).length - (' ' :: rest).length = 4 := by
    rw [List.length_append, hlength]
    omega
  simp only [mailYear?, hlong, Option.map_some, hcount]

/-- No number is read where no digit stands. -/
theorem numeral?_eq_none {least most : Nat} {cs : List Char} (hleast : 0 < least) (hend : DigitsEnd cs) :
    numeral? least most cs = none := by
  have hnone : ([] ++ cs).takeWhile Char.isDigit = [] := takeWhile_run (by simp) hend
  rw [List.nil_append] at hnone
  simp [numeral?, hnone, hleast]

/-! ## Fractions -/

theorem fraction?_padded {width n : Nat} {rest : List Char} (hn : n < 10 ^ width) (hpos : 0 < width)
    (hwidth : width ≤ 9) (hend : DigitsEnd rest) :
    fraction? (padded width n ++ rest) = some (n * 10 ^ (9 - width), rest) := by
  have hlength : (padded width n).length = width := length_padded_of_lt hn hpos
  have hsome : (padded width n).isEmpty = false := by
    obtain ⟨c, cs, hcons, -⟩ := exists_padded_eq_cons width n
    rw [hcons, List.isEmpty_cons]
  have htaken : (padded width n).take 9 = padded width n := List.take_of_length_le (by omega)
  simp only [fraction?, takeWhile_run isDigit_of_mem_padded hend, dropWhile_run isDigit_of_mem_padded hend,
    hsome, htaken, hlength, ofRun_padded]
  rfl

theorem optionalFraction?_of_no_point {rest : List Char} (hpoint : ∀ c ∈ rest.head?, c ≠ '.') :
    optionalFraction? rest = some (0, rest) := by
  cases rest with
  | nil => rfl
  | cons c cs =>
    have hc : c ≠ '.' := hpoint c rfl
    simp [optionalFraction?, hc]

/-- The fraction of a second is read as far as it is written. -/
theorem optionalFraction?_write (p : Precision) {nano : Nat} {rest : List Char} (h : nano < 1000000000)
    (hend : DigitsEnd rest) (hpoint : ∀ c ∈ rest.head?, c ≠ '.') :
    optionalFraction? (writeFraction p nano ++ rest) = some (p.keep nano, rest) := by
  have hmillis : fraction? (padded 3 (nano / 1000000) ++ rest) = some (nano / 1000000 * 1000000, rest) :=
    fraction?_padded (by omega) (by decide) (by decide) hend
  cases p with
  | millis => exact hmillis
  | exact =>
    simp only [writeFraction, Precision.keep]
    split_ifs with hzero hmilli hmicro
    · subst hzero
      exact optionalFraction?_of_no_point hpoint
    · rw [List.cons_append, optionalFraction?, hmillis]
      congr
      omega
    · rw [List.cons_append, optionalFraction?, fraction?_padded (by omega) (by decide) (by decide) hend]
      congr
      omega
    · rw [List.cons_append, optionalFraction?, fraction?_padded (by omega) (by decide) (by decide) hend]
      simp

/-! ## Names -/

/-- The short names of the months, from January. -/
def monthAbbreviations : List String :=
  ["Jan", "Feb", "Mar", "Apr", "May", "Jun", "Jul", "Aug", "Sep", "Oct", "Nov", "Dec"]

/-- The short name of a month. -/
def monthAbbreviation (month : Nat) : String :=
  monthAbbreviations.getD (month - 1) ""

theorem monthAbbreviation_mem {month : Nat} (h : 1 ≤ month ∧ month ≤ 12) :
    monthAbbreviation month ∈ monthAbbreviations := by
  have hindex : month - 1 < monthAbbreviations.length := by
    show month - 1 < 12
    omega
  rw [monthAbbreviation, List.getD_eq_getElem?_getD, List.getElem?_eq_getElem hindex]
  exact List.getElem_mem hindex

theorem named?_weekday (d : Weekday) (rest : List Char) :
    named? weekdayNames (d.abbreviation.toList ++ rest) = some (d, rest) := by
  cases d <;> rfl

theorem named?_month {month : Nat} (h : 1 ≤ month ∧ month ≤ 12) (rest : List Char) :
    named? monthNames ((monthAbbreviation month).toList ++ rest) = some (month, rest) := by
  obtain ⟨k, hk, rfl⟩ : ∃ k, k < 12 ∧ month = k + 1 := ⟨month - 1, by omega, by omega⟩
  match k, hk with
  | 0, _ | 1, _ | 2, _ | 3, _ | 4, _ | 5, _ | 6, _ | 7, _ | 8, _ | 9, _ | 10, _ | 11, _ => rfl

theorem trimStart_month {month : Nat} (h : 1 ≤ month ∧ month ≤ 12) (rest : List Char) :
    trimStart ((monthAbbreviation month).toList ++ rest) = (monthAbbreviation month).toList ++ rest := by
  obtain ⟨k, hk, rfl⟩ : ∃ k, k < 12 ∧ month = k + 1 := ⟨month - 1, by omega, by omega⟩
  match k, hk with
  | 0, _ | 1, _ | 2, _ | 3, _ | 4, _ | 5, _ | 6, _ | 7, _ | 8, _ | 9, _ | 10, _ | 11, _ => rfl

theorem trimStart_weekday (d : Weekday) (rest : List Char) :
    trimStart (d.abbreviation.toList ++ rest) = d.abbreviation.toList ++ rest := by
  cases d <;> rfl

theorem literal?_eq_none {l c : Char} (h : c ≠ l) (ls cs : List Char) : literal? (l :: ls) (c :: cs) = none := by
  simp [literal?, char?, h]

/-- No name is read where a digit stands. -/
theorem named?_eq_none {α : Type} {c : Char} (hc : c.isDigit = true) (cs : List Char) :
    ∀ {names : List (String × α)}, (∀ p ∈ names, p.1.toList.head?.any (!·.isDigit) = true) →
      named? names (c :: cs) = none
  | [], _ => rfl
  | (name, a) :: names, hnames => by
    obtain ⟨hname, hrest⟩ := List.forall_mem_cons.mp hnames
    cases hletters : name.toList with
    | nil => simp [hletters] at hname
    | cons l ls =>
      have hlength : name.length = ls.length + 1 := by
        rw [← String.length_toList, hletters, List.length_cons]
      have hne : c ≠ l := by
        rintro rfl
        simp [hletters, hc] at hname
      rw [named?, hletters, hlength, List.take_succ_cons, List.map_cons, Numeral.toLower_of_isDigit hc,
        literal?_eq_none hne]
      exact named?_eq_none hc cs hrest

theorem named?_weekday_eq_none {c : Char} (hc : c.isDigit = true) (cs : List Char) :
    named? weekdayNames (c :: cs) = none :=
  named?_eq_none hc cs (by decide +kernel)

/-! ## Offsets -/

/-- An offset from UTC in minutes: a sign, two digits for the hours and two for the minutes, with a
text between them. -/
def writeOffset (between : List Char) (minutes : Int) : List Char :=
  (if minutes < 0 then '-' else '+') ::
    (padded 2 (minutes.natAbs / 60) ++ (between ++ padded 2 (minutes.natAbs % 60)))

theorem offset?_write {between : List Char} {passOver : List Char → Option (List Char)} {minutes : Int}
    (h : minutes.natAbs < 1440) (minusSign : Bool) (rest : List Char)
    (hpass : passOver (between ++ (padded 2 (minutes.natAbs % 60) ++ rest)) =
      some (padded 2 (minutes.natAbs % 60) ++ rest)) :
    offset? passOver minusSign (writeOffset between minutes ++ rest) = some (minutes * 60, rest) := by
  have hhours : ∀ cs, numeral? 2 2 (padded 2 (minutes.natAbs / 60) ++ cs) = some (minutes.natAbs / 60, cs) :=
    numeral?_two (by omega) le_rfl
  have hbelow : minutes.natAbs % 60 < 60 := by omega
  have hminutes : (passOver (between ++ (padded 2 (minutes.natAbs % 60) ++ rest))).bind (numeral? 2 2) =
      some (minutes.natAbs % 60, rest) := by
    rw [hpass, Option.bind_some]
    exact numeral?_two (by omega) le_rfl rest
  simp only [offset?, writeOffset, List.cons_append, List.append_assoc]
  rcases Int.lt_or_le minutes 0 with hneg | hpos
  · have hseconds : -(((minutes.natAbs / 60 : Nat) : Int) * 3600 + ((minutes.natAbs % 60 : Nat) : Int) * 60) =
        minutes * 60 := by omega
    simp only [hneg, if_true, show ('-' = '+') = False by decide, if_false, true_or, hhours, hminutes, hbelow,
      hseconds]
  · have hseconds : ((minutes.natAbs / 60 : Nat) : Int) * 3600 + ((minutes.natAbs % 60 : Nat) : Int) * 60 =
        minutes * 60 := by omega
    simp only [Int.not_lt.mpr hpos, if_true, if_false, hhours, hminutes, hbelow, Bool.false_eq_true, hseconds]

/-- An offset begins with its sign. -/
theorem exists_writeOffset_eq_cons (between : List Char) (minutes : Int) :
    ∃ c cs, writeOffset between minutes = c :: cs ∧ (c = '+' ∨ c = '-') := by
  unfold writeOffset
  split
  · exact ⟨_, _, rfl, .inr rfl⟩
  · exact ⟨_, _, rfl, .inl rfl⟩

theorem no_point_writeOffset (between : List Char) (minutes : Int) :
    ∀ c ∈ (writeOffset between minutes).head?, c ≠ '.' := by
  obtain ⟨c, cs, hcons, hsign⟩ := exists_writeOffset_eq_cons between minutes
  rw [hcons]
  rintro _ ⟨⟩ rfl
  simp at hsign

theorem trimStart_writeOffset (between : List Char) (minutes : Int) (rest : List Char) :
    trimStart (writeOffset between minutes ++ rest) = writeOffset between minutes ++ rest := by
  obtain ⟨c, cs, hcons, hsign⟩ := exists_writeOffset_eq_cons between minutes
  have hblank : isBlank c = false := by rcases hsign with rfl | rfl <;> decide
  rw [hcons, List.cons_append, Text.trimStart_cons_of_not_blank hblank]

theorem trimEnd_writeOffset (cs between : List Char) (minutes : Int) :
    trimEnd (cs ++ writeOffset between minutes) = cs ++ writeOffset between minutes := by
  have hend : ∀ (sign : Char) (hours : List Char), cs ++ sign :: (hours ++ (between ++ padded 2 (minutes.natAbs % 60))) =
      cs ++ sign :: (hours ++ between) ++ padded 2 (minutes.natAbs % 60) := by
    intro sign hours
    simp
  rw [writeOffset, hend, trimEnd_padded]

theorem zuluOrOffset?_write {minutes : Int} (h : minutes.natAbs < 1440) (rest : List Char) :
    zuluOrOffset? (writeOffset [':'] minutes ++ rest) = some (minutes * 60, rest) := by
  have hread : offset? (char? ':') true (writeOffset [':'] minutes ++ rest) = some (minutes * 60, rest) :=
    offset?_write h true rest rfl
  obtain ⟨c, cs, hcons, hsign⟩ := exists_writeOffset_eq_cons [':'] minutes
  rw [hcons, List.cons_append] at hread ⊢
  have hzulu : ¬(c = 'Z' ∨ c = 'z') := by rcases hsign with rfl | rfl <;> decide
  rw [zuluOrOffset?, if_neg hzulu, hread]

theorem mailOffset?_write {minutes : Int} (h : minutes.natAbs < 1440) (rest : List Char) :
    mailOffset? (writeOffset [] minutes ++ rest) = some (minutes * 60, rest) := by
  have hread : offset? some false (writeOffset [] minutes ++ rest) = some (minutes * 60, rest) :=
    offset?_write h false rest rfl
  obtain ⟨c, cs, hcons, hsign⟩ := exists_writeOffset_eq_cons [] minutes
  rw [hcons, List.cons_append] at hread ⊢
  have hletter : c.isAlpha = false := by rcases hsign with rfl | rfl <;> decide
  simp only [mailOffset?, List.takeWhile_cons, hletter, Bool.false_eq_true, if_false, List.isEmpty_nil, if_true,
    hread]

theorem readOffset_write {minutes : Int} (h : minutes.natAbs < 1440) (p : Parts) (rest : List Char) :
    Item.offset.read? p (writeOffset [] minutes ++ rest) = some ({ p with offset := minutes * 60 }, rest) := by
  have hpass : ((padded 2 (minutes.natAbs % 60) ++ rest).dropWhile fun c => c == ':' || isBlank c) =
      padded 2 (minutes.natAbs % 60) ++ rest := by
    obtain ⟨c, cs, hcons, hdigit⟩ := exists_padded_eq_cons 2 (minutes.natAbs % 60)
    have hcolon : c ≠ ':' := by
      rintro rfl
      exact absurd hdigit (by decide)
    simp [hcons, hcolon, not_isBlank_of_isDigit hdigit]
  have hread : offset? (fun cs => some (cs.dropWhile fun c => c == ':' || isBlank c)) true
      (writeOffset [] minutes ++ rest) = some (minutes * 60, rest) :=
    offset?_write h true rest (congrArg some hpass)
  rw [Item.read?, trimStart_writeOffset, hread, Option.map_some]

end Calendar

end RequestGuard
