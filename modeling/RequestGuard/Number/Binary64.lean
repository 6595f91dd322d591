/-!
# Binary64

The 64-bit binary floating-point numbers, as data: a finite number is a sign, a significand and an
exponent of two in canonical form, so that equal data and equal numbers are the same thing, the two
zeros apart. Nothing here rests on the machine's arithmetic. An operation is computed exactly over
the integers and rounded once, to the nearest number with ties to the even significand (`ofRatio`).

`numEq` is comparison as numbers: the zeros are equal and a NaN is equal to nothing.
-/

namespace RequestGuard

/-- Whether `m · 2^e` is the canonical form of a finite number: the significand has 53 bits, or
fewer at the least exponent only. -/
def Canonical (m : Nat) (e : Int) : Prop :=
  m < 0x20000000000000 ∧ -1074 ≤ e ∧ e ≤ 971 ∧ (0x10000000000000 ≤ m ∨ e = -1074)

instance (m : Nat) (e : Int) : Decidable (Canonical m e) :=
  inferInstanceAs (Decidable (_ ∧ _ ∧ _ ∧ (_ ∨ _)))

/-- A 64-bit binary floating-point number; all NaNs are one. -/
inductive Binary64 where
  | nan
  | infinite (negative : Bool)
  | finite (negative : Bool) (significand : Nat) (exponent : Int) (canonical : Canonical significand exponent)
deriving DecidableEq

namespace Binary64

/-! ## Rounding -/

/-- The zero of a sign. -/
def zero (negative : Bool) : Binary64 :=
  .finite negative 0 (-1074) (by decide)

/-- The number `± m · 2^e` when that form is canonical. A form that is not is one beyond the largest
finite number: infinity. -/
def ofParts (negative : Bool) (m : Nat) (e : Int) : Binary64 :=
  if h : Canonical m e then .finite negative m e h else .infinite negative

/-- The whole number nearest to `num / den`, a tie going to the even one. -/
def divHalfEven (num den : Nat) : Nat :=
  let q := num / den
  let r := num % den
  if 2 * r < den then q
  else if den < 2 * r then q + 1
  else q + q % 2

/-- The greatest `k` with `2^k ≤ num / den`, for positive `num` and `den`. -/
def ratioLog2 (num den : Nat) : Int :=
  let k : Int := num.log2 - den.log2
  if den <<< k.toNat ≤ num <<< (-k).toNat then k else k - 1

/-- The number nearest to `± num / den`, a tie going to the even significand. -/
def ofRatio (negative : Bool) (num den : Nat) : Binary64 :=
  if num = 0 then zero negative
  else
    let e := max (-1074) (ratioLog2 num den - 52)
    let m := divHalfEven (num <<< (-e).toNat) (den <<< e.toNat)
    if m = 0x20000000000000 then ofParts negative 0x10000000000000 (e + 1) else ofParts negative m e

/-- The number nearest to a whole number. -/
def ofInt (i : Int) : Binary64 :=
  ofRatio (i < 0) i.natAbs 1

/-- The number nearest to `± digits · 10^exponent`. The two bounds only spare the work of writing
out a number that is infinite or zero in any case. -/
def ofDecimal (negative : Bool) (digits : Nat) (exponent : Int) : Binary64 :=
  if digits = 0 then zero negative
  else if 400 < exponent then .infinite negative
  else if exponent + (digits.log2 / 3 + 1 : Nat) < -400 then zero negative
  else ofRatio negative (digits * Nat.pow 10 exponent.toNat) (Nat.pow 10 (-exponent).toNat)

/-! ## Arithmetic -/

/-- The number `± m · 2^e`, rounded. -/
def ofScaled (negative : Bool) (m : Nat) (e : Int) : Binary64 :=
  ofRatio negative (m <<< e.toNat) (1 <<< (-e).toNat)

/-- The rounded product. -/
def mul : Binary64 → Binary64 → Binary64
  | .nan, _ => .nan
  | _, .nan => .nan
  | .infinite s, .infinite t => .infinite (s != t)
  | .infinite s, .finite t n _ _ => if n = 0 then .nan else .infinite (s != t)
  | .finite s m _ _, .infinite t => if m = 0 then .nan else .infinite (s != t)
  | .finite s m e _, .finite t n f _ => ofScaled (s != t) (m * n) (e + f)

/-- The rounded quotient. -/
def div : Binary64 → Binary64 → Binary64
  | .nan, _ => .nan
  | _, .nan => .nan
  | .infinite _, .infinite _ => .nan
  | .infinite s, .finite t _ _ _ => .infinite (s != t)
  | .finite s _ _ _, .infinite t => zero (s != t)
  | .finite s m e _, .finite t n f _ =>
    if n = 0 then (if m = 0 then .nan else .infinite (s != t))
    else ofRatio (s != t) (m <<< (e - f).toNat) (n <<< (f - e).toNat)

instance : Mul Binary64 := ⟨mul⟩
instance : Div Binary64 := ⟨div⟩

/-- The number with the other sign. -/
def neg : Binary64 → Binary64
  | .nan => .nan
  | .infinite s => .infinite (!s)
  | .finite s m e h => .finite (!s) m e h

instance : Neg Binary64 := ⟨neg⟩

/-! ## Views -/

/-- Neither a NaN nor an infinity. -/
def isFinite : Binary64 → Bool
  | .finite .. => true
  | _ => false

/-- Equality as numbers: the zeros are equal, and a NaN is equal to nothing. -/
def numEq : Binary64 → Binary64 → Bool
  | .infinite s, .infinite t => s == t
  | .finite s m e _, .finite t n f _ => (m == 0 && n == 0) || (s == t && m == n && e == f)
  | _, _ => false

/-- A finite number without its fraction. -/
def truncate? : Binary64 → Option Int
  | .finite s m e _ =>
    let n := (m <<< e.toNat) >>> (-e).toNat
    some (if s then -(n : Int) else n)
  | _ => none

/-- The whole number that a finite number is, if it has no fraction. -/
def whole? : Binary64 → Option Int
  | .finite s m e h => if m % (1 <<< (-e).toNat) = 0 then (finite s m e h).truncate? else none
  | _ => none

/-- Whether a finite number lies within `± bound`. -/
def isWithin (bound : Nat) : Binary64 → Bool
  | .finite _ m e _ => m <<< e.toNat ≤ bound <<< (-e).toNat
  | _ => false

end Binary64

end RequestGuard
