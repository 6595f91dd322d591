import RequestGuard.Calendar.Day
import RequestGuard.Number.Binary64

/-!
# Instants

A point in time in UTC, to the nanosecond: a day, a second of the day and a fraction. A leap second
is the second before it with a fraction of one second or more, so it is an instant of its own, and
no other instant equals it. The days that instants may have run from 1 January of the year -262143
to 31 December of the year 262142.

Epoch milliseconds count from 1970-01-01 without leap seconds. An instant is read from them when
they lie within `maxEpochMillis` and their day is one that instants may have; the second bound is
the narrower one.
-/

namespace RequestGuard

/-- A point in time in UTC. -/
structure Instant where
  day : Int
  second : Nat
  nano : Nat
  day_in_range : -96465292 ≤ day ∧ day ≤ 95026236
  second_lt : second < 86400
  nano_lt : nano < 2000000000
deriving DecidableEq

namespace Instant

/-- The largest magnitude of epoch milliseconds that is read as an instant. -/
def maxEpochMillis : Nat := 8640000000000000

/-- The instant a number of whole seconds from 1970-01-01 with a fraction, where its day is in
range. -/
def ofEpochSecond? (second : Int) (nano : Nat) (h : nano < 2000000000) : Option Instant :=
  if hd : -96465292 ≤ second / 86400 ∧ second / 86400 ≤ 95026236 then
    some ⟨second / 86400, (second % 86400).toNat, nano, hd, by omega, h⟩
  else none

/-- The count of whole seconds from 1970-01-01, a leap second counting as the one before it. -/
def epochSecond (i : Instant) : Int :=
  i.day * 86400 + i.second

/-- The count of milliseconds from 1970-01-01, what is left of one dropped. -/
def epochMillis (i : Instant) : Int :=
  i.epochSecond * 1000 + (i.nano / 1000000 : Nat)

/-- The instant of a count of milliseconds from 1970-01-01. -/
def ofEpochMillis? (ms : Int) : Option Instant :=
  if ms.natAbs ≤ maxEpochMillis then
    ofEpochSecond? (ms / 1000) ((ms % 1000).toNat * 1000000) (by omega)
  else none

/-- The instant of a count of milliseconds, its fraction dropped. -/
def ofBinary64? (x : Binary64) : Option Instant :=
  if x.isWithin maxEpochMillis then x.truncate?.bind ofEpochMillis? else none

/-- The date in UTC. -/
def date (i : Instant) : Calendar.Date :=
  .ofNumber i.day

end Instant

end RequestGuard
