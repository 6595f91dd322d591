import RequestGuard.Calendar.Instant
import RequestGuard.Number.Numeral

/-!
# Timestamps

The text of an instant: date, `T`, time and `Z`. A year of four digits stands for itself and any
other has a sign and at least four digits. A leap second is written `:60`. The fraction of a second
has three digits, the rest dropped, or as few of 0, 3, 6 and 9 digits as lose nothing.
-/

namespace RequestGuard.Timestamp

/-- How much of a second's fraction is written. -/
inductive Precision where
  | millis
  | exact
deriving DecidableEq, Repr

/-- A number in at least `width` digits. -/
def padded (width n : Nat) : List Char :=
  let ds := Nat.toDigits 10 n
  List.replicate (width - ds.length) '0' ++ ds

/-- A year. -/
def writeYear (year : Int) : List Char :=
  if 0 ≤ year ∧ year ≤ 9999 then padded 4 year.toNat
  else (if year < 0 then '-' else '+') :: padded 4 year.natAbs

/-- The fraction of a second, given in nanoseconds. -/
def writeFraction (p : Precision) (nano : Nat) : List Char :=
  match p with
  | .millis => '.' :: padded 3 (nano / 1000000)
  | .exact =>
    if nano = 0 then []
    else if nano % 1000000 = 0 then '.' :: padded 3 (nano / 1000000)
    else if nano % 1000 = 0 then '.' :: padded 6 (nano / 1000)
    else '.' :: padded 9 nano

/-- A date. -/
def writeDate (d : Calendar.Date) : List Char :=
  writeYear d.year ++ '-' :: padded 2 d.month ++ '-' :: padded 2 d.day

/-- A time of day. -/
def writeTime (second : Nat) : List Char :=
  padded 2 (second / 3600) ++ ':' :: padded 2 (second / 60 % 60) ++ ':' :: padded 2 (second % 60)

/-- The time of day of an instant, the leap second after the last one of its minute. -/
def writeClock (p : Precision) (second nano : Nat) : List Char :=
  if nano < 1000000000 then writeTime second ++ writeFraction p nano
  else
    padded 2 (second / 3600) ++ ':' :: padded 2 (second / 60 % 60) ++ ':' :: padded 2 (second % 60 + 1) ++
      writeFraction p (nano - 1000000000)

/-- The text of an instant. -/
def write (p : Precision) (i : Instant) : List Char :=
  writeDate i.date ++ 'T' :: writeClock p i.second i.nano ++ ['Z']

end RequestGuard.Timestamp
