import RequestGuard.Calendar.Pattern

/-!
# Spellings of an instant

The texts that denote an instant, each form a reader of its own, and `Instant.ofText?`, which tries
them in a fixed order on the text without its outer blanks: epoch milliseconds as a number, RFC
3339, RFC 2822, the form with names and `GMT` that browsers print, and forms without an offset, read
as UTC. A text that is a number is nothing else; any other form that fails leaves the text to the
next.
-/

namespace RequestGuard.Calendar

open Text (trim trimStart isBlank)

/-! ## RFC 3339 -/

/-- What stands between date and time. -/
def dateTimeSeparator? : List Char → Option (List Char)
  | c :: cs => if c = 'T' ∨ c = 't' ∨ c = ' ' then some cs else none
  | [] => none

/-- A fraction of a second with its point, if one comes next. -/
def optionalFraction? : List Char → Option (Nat × List Char)
  | '.' :: cs => fraction? cs
  | cs => some (0, cs)

/-- An offset with a colon, or `Z` in either case. -/
def zuluOrOffset? : List Char → Option (Int × List Char)
  | [] => none
  | c :: cs => if c = 'Z' ∨ c = 'z' then some (0, cs) else offset? (char? ':') true (c :: cs)

/-- The parts of an RFC 3339 text, which has exact digit counts throughout. -/
def rfc3339Parts? (cs : List Char) : Option (Parts × List Char) := do
  let (year, cs) ← numeral? 4 4 cs
  let cs ← char? '-' cs
  let (month, cs) ← numeral? 2 2 cs
  let cs ← char? '-' cs
  let (day, cs) ← numeral? 2 2 cs
  let cs ← dateTimeSeparator? cs
  let (hour, cs) ← numeral? 2 2 cs
  let cs ← char? ':' cs
  let (minute, cs) ← numeral? 2 2 cs
  let cs ← char? ':' cs
  let (second, cs) ← numeral? 2 2 cs
  let (nano, cs) ← optionalFraction? cs
  let (offset, cs) ← zuluOrOffset? cs
  some ({ year, month, day, hour, minute, second, nano, offset }, cs)

/-- The instant of an RFC 3339 text. -/
def ofRfc3339? (cs : List Char) : Option Instant :=
  match rfc3339Parts? cs with
  | some (p, []) => p.instant?
  | _ => none

/-! ## RFC 2822 -/

/-- The weekday and its comma, if a day's name comes next. -/
def optionalWeekday? (cs : List Char) : Option (Option Weekday × List Char) :=
  match named? weekdayNames cs with
  | some (d, cs) => (char? ',' cs).map fun cs => (some d, cs)
  | none => some (none, cs)

/-- A year of two digits lies between 1950 and 2049, one of three counts from 1900, and any other
stands for itself. -/
def mailYear? (cs : List Char) : Option (Int × List Char) :=
  (longNumeral? 2 cs).map fun (n, rest) =>
    match cs.length - rest.length with
    | 2 => (if n < 50 then n + 2000 else n + 1900, rest)
    | 3 => (n + 1900, rest)
    | _ => (n, rest)

/-- The seconds, if a colon comes next. -/
def optionalSecond? (cs : List Char) : Option (Nat × List Char) :=
  match trimStart cs with
  | ':' :: cs => numeral? 2 2 cs
  | _ => some (0, cs)

/-- The hours that the names of American zones are west of Greenwich. -/
def zoneHours : List (String × Int) :=
  [("gmt", 0), ("ut", 0), ("z", 0), ("edt", 4), ("est", 5), ("cdt", 5), ("cst", 6), ("mdt", 6), ("mst", 7),
    ("pdt", 7), ("pst", 8)]

/-- The offset that a zone's name stands for. A single letter other than J is a zone without
meaning, and stands for UTC. -/
def zoneOffset? (name : String) : Option Int :=
  match zoneHours.lookup name with
  | some hours => some (-(hours * 3600))
  | none => if name.length = 1 ∧ name ≠ "j" then some 0 else none

/-- A zone's name or an offset without a colon. -/
def mailOffset? (cs : List Char) : Option (Int × List Char) :=
  let name := cs.takeWhile Char.isAlpha
  if name.isEmpty then offset? some false cs
  else (zoneOffset? (String.ofList (name.map Char.toLower))).map fun n => (n, cs.dropWhile Char.isAlpha)

/-- The rest of a comment at a depth of parentheses; a backslash takes the next character's meaning
away. -/
def closeComment? : Nat → List Char → Option (List Char)
  | _, [] => none
  | _, ['\\'] => none
  | depth, '\\' :: _ :: cs => closeComment? depth cs
  | depth, '(' :: cs => closeComment? (depth + 1) cs
  | depth, ')' :: cs => if depth ≤ 1 then some cs else closeComment? (depth - 1) cs
  | depth, _ :: cs => closeComment? depth cs

/-- A comment and the blanks before it. -/
def comment? (cs : List Char) : Option (List Char) :=
  match trimStart cs with
  | '(' :: cs => closeComment? 1 cs
  | _ => none

/-- The text after as many comments as follow one another. The limit bounds their count; the length
of the text is enough. -/
def dropComments : Nat → List Char → List Char
  | 0, cs => cs
  | limit + 1, cs =>
    match comment? cs with
    | some rest => dropComments limit rest
    | none => cs

/-- The parts of an RFC 2822 text. -/
def rfc2822Parts? (cs : List Char) : Option (Parts × List Char) := do
  let (weekday, cs) ← optionalWeekday? (trimStart cs)
  let (day, cs) ← numeral? 1 2 (trimStart cs)
  let cs ← blanks? cs
  let (month, cs) ← named? monthNames cs
  let cs ← blanks? cs
  let (year, cs) ← mailYear? cs
  let cs ← blanks? cs
  let (hour, cs) ← numeral? 2 2 cs
  let cs ← char? ':' (trimStart cs)
  let (minute, cs) ← numeral? 2 2 (trimStart cs)
  let (second, cs) ← optionalSecond? cs
  let cs ← blanks? cs
  let (offset, cs) ← mailOffset? cs
  some ({ year, month, day, weekday, hour, minute, second, offset }, dropComments cs.length cs)

/-- The instant of an RFC 2822 text. -/
def ofRfc2822? (cs : List Char) : Option Instant :=
  match rfc2822Parts? cs with
  | some (p, []) => p.instant?
  | _ => none

/-! ## Patterns -/

/-- The form with names, as in `Thu Jan 15 2026 12:00:00 GMT+0000`. -/
def namedPattern : List Item :=
  [.weekdayName, .blanks, .monthName, .blanks, .day, .blanks, .year, .blanks, .hour, .text ":", .minute, .text ":",
    .second, .blanks, .text "GMT", .offset]

/-- A date in digits. -/
def datePattern : List Item :=
  [.year, .text "-", .month, .text "-", .day]

/-- The forms without an offset, in the order in which they are tried. -/
def plainPatterns : List (List Item) :=
  [datePattern ++ [.text "T", .hour, .text ":", .minute, .text ":", .second, .fraction],
    datePattern ++ [.text "T", .hour, .text ":", .minute, .text ":", .second],
    datePattern ++ [.text "T", .hour, .text ":", .minute],
    datePattern ++ [.blanks, .hour, .text ":", .minute, .text ":", .second, .fraction],
    datePattern ++ [.blanks, .hour, .text ":", .minute, .text ":", .second],
    datePattern]

/-- The text before the first blank that a parenthesis follows: what the form with names says after
it is no more than the zone's name. -/
def withoutZoneName : List Char → List Char
  | ' ' :: '(' :: _ => []
  | c :: cs => c :: withoutZoneName cs
  | [] => []

/-- The instant that a text without outer blanks spells with a date in it. -/
def ofDateText? (cs : List Char) : Option Instant :=
  (ofRfc3339? cs).or ((ofRfc2822? cs).or
    ((ofPattern? namedPattern (withoutZoneName cs)).or (plainPatterns.findSome? (ofPattern? · cs))))

end RequestGuard.Calendar

/-- The instant that a text denotes. -/
def RequestGuard.Instant.ofText? (s : String) : Option Instant :=
  let cs := Text.trim s.toList
  match Numeral.binary64? cs with
  | some x => Instant.ofBinary64? x
  | none => Calendar.ofDateText? cs
