import RequestGuard.Number.Shortest

/-!
# Notations for binary64 numbers

A notation says how the shortest decimal of a number is laid out: for which decimal exponents the
digits stand in place, how many digits a fraction has at least, what stands before a positive
exponent, and what is written for the numbers that have no digits. Three of them are in use:
`display` for people, `json` for JSON text and `exact` for a number whose kind must show.
-/

namespace RequestGuard

/-- How a number is written. -/
structure Notation where
  /-- Whether digits stand in place at a decimal exponent (that of the first digit). -/
  isPositional : Int → Bool
  /-- The least count of digits after the point of a number written in place. -/
  fractionDigits : Nat
  /-- The sign of a positive exponent. -/
  exponentSign : List Char
  tie : Decimal.Tie
  nan : String
  infinite : String

namespace Notation

/-- For people: always in place, and a fraction only where there is one. -/
def display : Notation where
  isPositional _ := true
  fractionDigits := 0
  exponentSign := []
  tie := .up
  nan := "NaN"
  infinite := "inf"

/-- JSON: in place for exponents from -5 to 15, with a fraction always, and else with a signed
exponent. JSON has no text for the numbers without digits; they are written as null before a
notation is asked. -/
def json : Notation where
  isPositional x := -5 ≤ x && x ≤ 15
  fractionDigits := 1
  exponentSign := ['+']
  tie := .even
  nan := "NaN"
  infinite := "inf"

/-- In place from `0.0001` up to below `10^16`, with a fraction always, so that no number looks like
an integer. -/
def exact : Notation where
  isPositional x := -4 ≤ x && x ≤ 15
  fractionDigits := 1
  exponentSign := []
  tie := .up
  nan := "NaN"
  infinite := "inf"

/-- A fraction, filled up to the notation's least count of digits; nothing when it has none. -/
def fraction (n : Notation) (ds : List Char) : List Char :=
  let filled := ds ++ List.replicate (n.fractionDigits - ds.length) '0'
  if filled.isEmpty then [] else '.' :: filled

/-- Digits with the point after the first `point` of them, zeros filling what the digits leave
open. -/
def inPlace (n : Notation) (ds : List Char) (point : Int) : List Char :=
  if point ≤ 0 then '0' :: n.fraction (List.replicate (-point).toNat '0' ++ ds)
  else
    let whole := ds.take point.toNat
    whole ++ List.replicate (point.toNat - whole.length) '0' ++ n.fraction (ds.drop point.toNat)

/-- Digits with the point after the first, and the exponent. -/
def withExponent (n : Notation) (ds : List Char) (x : Int) : List Char :=
  let rest := ds.drop 1
  ds.take 1 ++ (if rest.isEmpty then [] else '.' :: rest) ++ 'e' ::
    (if x < 0 then ['-'] else n.exponentSign) ++ Nat.toDigits 10 x.natAbs

/-- A decimal without its sign. -/
def magnitude (n : Notation) (d : Decimal) : List Char :=
  let ds := Nat.toDigits 10 d.digits
  let point : Int := ds.length + d.exponent
  if n.isPositional (point - 1) then n.inPlace ds point else n.withExponent ds (point - 1)

/-- A number in the notation. -/
def write (n : Notation) : Binary64 → List Char
  | .nan => n.nan.toList
  | .infinite s => (if s then ['-'] else []) ++ n.infinite.toList
  | .finite s m e _ =>
    (if s then ['-'] else []) ++
      if m = 0 then n.inPlace ['0'] 1 else n.magnitude (Decimal.shortest n.tie m e)

end Notation

end RequestGuard
