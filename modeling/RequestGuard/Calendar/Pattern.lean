import RequestGuard.Calendar.Instant
import RequestGuard.Number.Numeral
import RequestGuard.Text.Blank

/-!
# Parts of a date and patterns for them

Readers of the parts that spellings of dates are made of, and patterns: lists of items that name
those parts and the texts between them. Every reader takes the text from where it stands and gives
the rest.

Patterns are lenient about blanks. A numeric item passes over blanks before its digits, an item
`blanks` stands for any count of them, none included, and names of days and months are read in any
case.
-/

namespace RequestGuard.Calendar

open Text (trimStart isBlank)

/-! ## Readers -/

/-- A number of `least` up to `most` digits, as many as there are. -/
def numeral? (least most : Nat) (cs : List Char) : Option (Nat × List Char) :=
  let ds := (cs.takeWhile Char.isDigit).take most
  if ds.length < least then none else some (Numeral.ofRun ds, cs.drop ds.length)

/-- A number of digits without bound. -/
def longNumeral? (least : Nat) (cs : List Char) : Option (Nat × List Char) :=
  numeral? least cs.length cs

/-- A character that must come next. -/
def char? (c : Char) : List Char → Option (List Char)
  | d :: cs => if d = c then some cs else none
  | [] => none

/-- A text that must come next. -/
def literal? : List Char → List Char → Option (List Char)
  | [], cs => some cs
  | l :: ls, cs => (char? l cs).bind (literal? ls)

/-- One blank or more. -/
def blanks? : List Char → Option (List Char)
  | c :: cs => if isBlank c then some (trimStart cs) else none
  | [] => none

/-- A fraction of a second after its point, in nanoseconds; digits after the ninth are dropped. -/
def fraction? (cs : List Char) : Option (Nat × List Char) :=
  let ds := cs.takeWhile Char.isDigit
  if ds.isEmpty then none
  else some (Numeral.ofRun (ds.take 9) * Nat.pow 10 (9 - ds.length), cs.dropWhile Char.isDigit)

/-- The first name that comes next in any case, with its value. -/
def named? {α : Type} (names : List (String × α)) (cs : List Char) : Option (α × List Char) :=
  match names with
  | [] => none
  | (name, a) :: names =>
    match literal? name.toList ((cs.take name.length).map Char.toLower) with
    | some _ => some (a, cs.drop name.length)
    | none => named? names cs

/-- The names of the days. -/
def weekdayNames : List (String × Weekday) :=
  [("sun", .sunday), ("mon", .monday), ("tue", .tuesday), ("wed", .wednesday), ("thu", .thursday), ("fri", .friday),
    ("sat", .saturday)]

/-- The names of the months. -/
def monthNames : List (String × Nat) :=
  [("jan", 1), ("feb", 2), ("mar", 3), ("apr", 4), ("may", 5), ("jun", 6), ("jul", 7), ("aug", 8), ("sep", 9),
    ("oct", 10), ("nov", 11), ("dec", 12)]

/-- An offset from UTC, in seconds: a sign, two digits for the hours, whatever `between` passes
over, and two digits for the minutes, of which there are fewer than sixty. -/
def offset? (between : List Char → Option (List Char)) (minusSign : Bool) (cs : List Char) :
    Option (Int × List Char) :=
  let signed : Option (Bool × List Char) := match cs with
    | c :: cs =>
      if c = '+' then some (false, cs)
      else if c = '-' ∨ (minusSign ∧ c = '\u2212') then some (true, cs)
      else none
    | [] => none
  match signed with
  | none => none
  | some (negative, cs) =>
    match numeral? 2 2 cs with
    | none => none
    | some (hours, cs) =>
      match (between cs).bind (numeral? 2 2) with
      | none => none
      | some (minutes, cs) =>
        if minutes < 60 then
          let seconds : Int := hours * 3600 + minutes * 60
          some (if negative then -seconds else seconds, cs)
        else none

/-! ## Parts -/

/-- The parts of a spelled instant, as far as they have been read. -/
structure Parts where
  year : Int := 1970
  month : Nat := 1
  day : Nat := 1
  weekday : Option Weekday := none
  hour : Nat := 0
  minute : Nat := 0
  second : Nat := 0
  nano : Nat := 0
  offset : Int := 0
deriving DecidableEq

/-- The instant that the parts name. The date must exist and fall on the weekday named, if any; the
time of day must be in range, with a second 60 for a leap second; and the offset must be below a
day. -/
def Parts.instant? (p : Parts) : Option Instant :=
  let date : Date := ⟨p.year, p.month, p.day⟩
  let second := if p.second = 60 then 59 else p.second
  let nano := if p.second = 60 then p.nano + 1000000000 else p.nano
  if h : nano < 2000000000 then
    if -262143 ≤ p.year ∧ p.year ≤ 262142 ∧ date.IsValid ∧
        (p.weekday = none ∨ p.weekday = some (.ofNumber date.number)) ∧
        p.hour < 24 ∧ p.minute < 60 ∧ second < 60 ∧ p.offset.natAbs < 86400 then
      Instant.ofEpochSecond? (date.number * 86400 + (p.hour * 3600 + p.minute * 60 + second : Nat) - p.offset) nano h
    else none
  else none

/-! ## Patterns -/

/-- One piece of a pattern. -/
inductive Item where
  | text (cs : String)
  | blanks
  | year
  | month
  | day
  | hour
  | minute
  | second
  | fraction
  | weekdayName
  | monthName
  | offset
deriving DecidableEq

/-- A year: up to four digits, or any count of them after a sign. -/
def year? (cs : List Char) : Option (Int × List Char) :=
  match trimStart cs with
  | '-' :: cs => (longNumeral? 1 cs).map fun (n, cs) => (-(n : Int), cs)
  | '+' :: cs => (longNumeral? 1 cs).map fun (n, cs) => ((n : Int), cs)
  | cs => (numeral? 1 4 cs).map fun (n, cs) => ((n : Int), cs)

/-- A number of one or two digits, blanks before it passed over. -/
def pair? (cs : List Char) : Option (Nat × List Char) :=
  numeral? 1 2 (trimStart cs)

/-- Reads one item. -/
def Item.read? (p : Parts) (cs : List Char) : Item → Option (Parts × List Char)
  | text t => (literal? t.toList cs).map fun cs => (p, cs)
  | blanks => some (p, trimStart cs)
  | year => (year? cs).map fun (n, cs) => ({ p with year := n }, cs)
  | month => (pair? cs).map fun (n, cs) => ({ p with month := n }, cs)
  | day => (pair? cs).map fun (n, cs) => ({ p with day := n }, cs)
  | hour => (pair? cs).map fun (n, cs) => ({ p with hour := n }, cs)
  | minute => (pair? cs).map fun (n, cs) => ({ p with minute := n }, cs)
  | second => (pair? cs).map fun (n, cs) => ({ p with second := n }, cs)
  | fraction => match cs with
    | '.' :: cs => (fraction? cs).map fun (n, cs) => ({ p with nano := n }, cs)
    | cs => some (p, cs)
  | weekdayName => (named? weekdayNames cs).map fun (d, cs) => ({ p with weekday := some d }, cs)
  | monthName => (named? monthNames cs).map fun (n, cs) => ({ p with month := n }, cs)
  | offset =>
    (offset? (fun cs => some (cs.dropWhile fun c => c == ':' || isBlank c)) true (trimStart cs)).map
      fun (n, cs) => ({ p with offset := n }, cs)

/-- Reads the items of a pattern in turn. -/
def readItems? (p : Parts) (cs : List Char) : List Item → Option (Parts × List Char)
  | [] => some (p, cs)
  | item :: items =>
    match item.read? p cs with
    | some (p, cs) => readItems? p cs items
    | none => none

/-- The instant that a text spells by a pattern, of which nothing may be left over. -/
def ofPattern? (items : List Item) (cs : List Char) : Option Instant :=
  match readItems? {} cs items with
  | some (p, []) => p.instant?
  | _ => none

end RequestGuard.Calendar
