import RequestGuard.Number.Binary64

/-!
# Numerals

Texts that denote numbers: an integer is an optional sign and ASCII digits; a floating-point number
is an optional sign and either digits with an optional point among, before or after them and an
optional exponent, or one of the words for infinity and NaN in any case. The whole text has to be
the numeral, blanks included. `writeInt` is the plain form of an integer.

A numeral may be as long as its sender likes. `ofRun` therefore joins the digits of a run two by
two, then the pairs two by two, and so on: a few products of long numbers in place of one for each
digit. `ofRun_eq_ofDigitChars` says that this is the number that the digits write one after another.
-/

namespace RequestGuard.Numeral

/-! ## Runs of digits -/

/-- The number of digits to a base, the lowest first. -/
def lowestFirst (base : Nat) (ds : List Nat) : Nat :=
  ds.foldr (fun d n => base * n + d) 0

/-- Joins neighbours among digits to a base, the lowest first, into digits to its square, behind
those already joined, of which the highest comes first. -/
def joinPairs (base : Nat) : List Nat → List Nat → List Nat
  | joined, low :: high :: ds => joinPairs base ((base * high + low) :: joined) ds
  | joined, [d] => (d :: joined).reverse
  | joined, [] => joined.reverse

/-- The number of digits to a base, the lowest first, in so many rounds of joining. -/
def joinRounds : Nat → Nat → List Nat → Nat
  | 0, base, ds => lowestFirst base ds
  | rounds + 1, base, ds => joinRounds rounds (base * base) (joinPairs base [] ds)

/-- The number that a run of ASCII digits writes. -/
def ofRun (cs : List Char) : Nat :=
  joinRounds cs.length.log2 10 (cs.reverse.map fun c => c.toNat - '0'.toNat)

theorem joinPairs_eq_append (base : Nat) : ∀ joined ds : List Nat,
    joinPairs base joined ds = joined.reverse ++ joinPairs base [] ds
  | joined, low :: high :: ds => by
    rw [joinPairs, joinPairs, joinPairs_eq_append base (_ :: joined), joinPairs_eq_append base [_]]
    simp
  | joined, [d] => by simp [joinPairs]
  | joined, [] => by simp [joinPairs]

theorem lowestFirst_joinPairs (base : Nat) : ∀ ds : List Nat,
    lowestFirst (base * base) (joinPairs base [] ds) = lowestFirst base ds
  | low :: high :: ds => by
    have ih := lowestFirst_joinPairs base ds
    rw [joinPairs, joinPairs_eq_append]
    simp only [lowestFirst, List.reverse_cons, List.reverse_nil, List.nil_append, List.cons_append,
      List.foldr_cons] at ih ⊢
    rw [ih, Nat.mul_add, Nat.mul_assoc, Nat.add_assoc]
  | [d] => by simp [joinPairs, lowestFirst]
  | [] => by simp [joinPairs, lowestFirst]

theorem joinRounds_eq_lowestFirst (rounds base : Nat) (ds : List Nat) :
    joinRounds rounds base ds = lowestFirst base ds := by
  induction rounds generalizing base ds with
  | zero => rfl
  | succ rounds ih => rw [joinRounds, ih, lowestFirst_joinPairs]

/-- Joining two by two gives the number that the digits write one after another. -/
theorem ofRun_eq_ofDigitChars (cs : List Char) : ofRun cs = Nat.ofDigitChars 10 cs 0 := by
  rw [ofRun, joinRounds_eq_lowestFirst, lowestFirst, Nat.ofDigitChars_eq_foldl, List.foldr_map, List.foldr_reverse]

/-! ## Integers -/

/-- The number that a run of one or more ASCII digits writes. -/
def digits? (cs : List Char) : Option Nat :=
  if !cs.isEmpty && cs.all Char.isDigit then some (ofRun cs) else none

/-- The sign in front (`true` for minus) and the text after it. -/
def splitSign : List Char → Bool × List Char
  | '+' :: cs => (false, cs)
  | '-' :: cs => (true, cs)
  | cs => (false, cs)

/-- An integer between two bounds. -/
def int? (least most : Int) (cs : List Char) : Option Int :=
  let (negative, rest) := splitSign cs
  match digits? rest with
  | some n =>
    let i : Int := if negative then -(n : Int) else n
    if least ≤ i ∧ i ≤ most then some i else none
  | none => none

/-- An integer of 64 bits. -/
def int64? (cs : List Char) : Option Int :=
  int? (-0x8000000000000000) 0x7fffffffffffffff cs

/-- A natural number up to a bound, which may have a plus sign and no other. -/
def nat? (most : Nat) (cs : List Char) : Option Nat :=
  let rest := match cs with
    | '+' :: cs => cs
    | cs => cs
  match digits? rest with
  | some n => if n ≤ most then some n else none
  | none => none

/-- An integer in plain digits, with a minus sign where it is negative. -/
def writeInt (i : Int) : List Char :=
  (if i < 0 then ['-'] else []) ++ Nat.toDigits 10 i.natAbs

/-! ## Floating point -/

/-- An exponent that takes one more digit. From `65536` on it stays what it is, so an exponent of
any length is read and none exceeds six digits. -/
def addExponentDigit (n : Nat) (c : Char) : Nat :=
  if n < 65536 then n * 10 + (c.toNat - '0'.toNat) else n

/-- The exponent that a run of one or more ASCII digits writes. -/
def exponentDigits? (cs : List Char) : Option Nat :=
  if !cs.isEmpty && cs.all Char.isDigit then some (cs.foldl addExponentDigit 0) else none

/-- The exponent part of a numeral, `0` when there is none. -/
def exponent? : List Char → Option Int
  | [] => some 0
  | c :: cs =>
    if c = 'e' ∨ c = 'E' then
      let (negative, rest) := splitSign cs
      (exponentDigits? rest).map fun n => if negative then -(n : Int) else n
    else none

/-- A numeral without its sign, given the sign. -/
def decimal? (negative : Bool) (cs : List Char) : Option Binary64 :=
  let whole := cs.takeWhile Char.isDigit
  let rest := cs.dropWhile Char.isDigit
  let (fraction, rest) := match rest with
    | '.' :: r => (r.takeWhile Char.isDigit, r.dropWhile Char.isDigit)
    | r => ([], r)
  let ds := whole ++ fraction
  if ds.isEmpty then none
  else (exponent? rest).map fun x =>
    Binary64.ofDecimal negative (ofRun ds) (x - fraction.length)

/-- The words that stand for a number without digits, in lower case. -/
def word? (negative : Bool) (cs : List Char) : Option Binary64 :=
  let lower := cs.map Char.toLower
  if lower = "inf".toList ∨ lower = "infinity".toList then some (.infinite negative)
  else if lower = "nan".toList then some .nan
  else none

/-- The floating-point number that a text writes, rounded to nearest. -/
def binary64? (cs : List Char) : Option Binary64 :=
  let (negative, rest) := splitSign cs
  (word? negative rest).or (decimal? negative rest)

/-! ## What a numeral begins with

Only a sign is taken off a text, and only the letters of the words for infinity and NaN begin one. -/

theorem splitSign_cons {c : Char} (h : c ≠ '+' ∧ c ≠ '-') (cs : List Char) : splitSign (c :: cs) = (false, c :: cs) := by
  simp [splitSign, h.1, h.2]

theorem word?_eq_none {c : Char} (h : c.toLower ≠ 'i' ∧ c.toLower ≠ 'n') (negative : Bool) (cs : List Char) :
    word? negative (c :: cs) = none := by
  simp [word?, h.1, h.2]

theorem toLower_of_isDigit {c : Char} (h : c.isDigit = true) : c.toLower = c := by
  have hrange : 48 ≤ c.toNat ∧ c.toNat ≤ 57 := Char.isDigit_iff_toNat.mp h
  have hval : c.toNat = c.val.toNat := rfl
  have hupper : ¬(c.val ≥ 'A'.val ∧ c.val ≤ 'Z'.val) := by
    intro hupper
    have hletter : 65 ≤ c.val.toNat := UInt32.le_iff_toNat_le.mp hupper.1
    omega
  exact dif_neg hupper

theorem ne_sign_of_isDigit {c : Char} (h : c.isDigit = true) : c ≠ '+' ∧ c ≠ '-' := by
  constructor <;> rintro rfl <;> exact absurd h (by decide)

/-- No word begins with a digit. -/
theorem word?_of_isDigit {c : Char} (h : c.isDigit = true) (negative : Bool) (cs : List Char) :
    word? negative (c :: cs) = none := by
  apply word?_eq_none
  rw [toLower_of_isDigit h]
  constructor <;> rintro rfl <;> exact absurd h (by decide)

end RequestGuard.Numeral
