import RequestGuard.Number.Binary64

/-!
# The shortest decimal

The decimal with the fewest digits that reads back as a given binary64 number, and of those the
nearest to it. The numbers that read back as `m · 2^e` are an interval around it, half a unit of the
last place to either side, or a quarter below a power of two, where the neighbour is closer; its
ends belong to it when `m` is even. On a grid of multiples of `10^p` only the two neighbours of the
number have to be tried, so the search walks from coarse grids to fine ones and stops at the first
hit. All comparisons are between natural numbers.
-/

namespace RequestGuard

/-- The number `digits · 10^exponent`. -/
structure Decimal where
  digits : Nat
  exponent : Int
deriving DecidableEq, Repr

namespace Decimal

/-- Which of two equally near decimals is taken. -/
inductive Tie where
  | even
  | up
deriving DecidableEq, Repr

/-- The multiple of `10^p` that stands for `m · 2^e`: the nearer of the two neighbours that read
back as it, if one does. Everything is counted in quarters of a unit of the last place. -/
def onGrid? (tie : Tie) (m : Nat) (e p : Int) : Option Nat :=
  let quarter := Nat.pow 10 (-p).toNat <<< (e - 2).toNat
  let step := Nat.pow 10 p.toNat <<< (2 - e).toNat
  let value := 4 * m * quarter
  let low := (4 * m - if m = 0x10000000000000 ∧ e ≠ -1074 then 1 else 2) * quarter
  let high := (4 * m + 2) * quarter
  let below := value / step
  let belowReads : Bool := if m % 2 = 0 then low ≤ below * step else low < below * step
  let aboveReads : Bool := if m % 2 = 0 then (below + 1) * step ≤ high else (below + 1) * step < high
  match belowReads, aboveReads with
  | false, false => none
  | true, false => some below
  | false, true => some (below + 1)
  | true, true =>
    if 2 * value < (2 * below + 1) * step then some below
    else if (2 * below + 1) * step < 2 * value then some (below + 1)
    else match tie with
      | .even => some (below + below % 2)
      | .up => some (below + 1)

/-- The first grid with a hit among `10^p`, `10^(p-1)`, …. -/
def search (tie : Tie) (m : Nat) (e : Int) : Nat → Int → Decimal
  | 0, p => ⟨(m <<< e.toNat * Nat.pow 10 (-p).toNat) / (Nat.pow 10 p.toNat <<< (-e).toNat), p⟩
  | grids + 1, p =>
    match onGrid? tie m e p with
    | some digits => ⟨digits, p⟩
    | none => search tie m e grids (p - 1)

/-- The shortest decimal of `m · 2^e`, for positive `m`. The walk starts above the number, whose bit
length bounds its decimal length, and no number needs more than seventeen digits. -/
def shortest (tie : Tie) (m : Nat) (e : Int) : Decimal :=
  search tie m e 24 ((e + m.log2 + 1) * 30103 / 100000 + 1)

end Decimal

end RequestGuard
