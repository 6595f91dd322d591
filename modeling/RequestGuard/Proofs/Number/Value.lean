import Mathlib.Algebra.Order.Field.Power
import Mathlib.Data.Rat.Cast.Order
import Mathlib.Tactic.Positivity
import RequestGuard.Number.Binary64

/-!
# The value of a binary64 number

A finite number denotes a rational number, exactly. The canonical form makes the significand and the
exponent of a value unique, so `numEq` compares values (`numEq_iff`), and what is computed on the
digits of a number, its whole part or whether it has a fraction, is computed on its value.
-/

namespace RequestGuard.Binary64

/-! ## Signs and values -/

/-- The number of a sign and a magnitude. -/
def signed (negative : Bool) (q : ℚ) : ℚ :=
  if negative then -q else q

/-- The rational number that a finite number is. -/
def value? : Binary64 → Option ℚ
  | .finite s m e _ => some (signed s (m * 2 ^ e))
  | _ => none

theorem signed_zero (s : Bool) : signed s 0 = 0 := by
  cases s
  · rfl
  · exact neg_zero

theorem signed_signed (s : Bool) (q : ℚ) : signed s (signed s q) = q := by
  cases s
  · rfl
  · exact neg_neg q

theorem abs_signed (s : Bool) (q : ℚ) : |signed s q| = |q| := by
  cases s
  · rfl
  · exact abs_neg q

theorem abs_signed_sub (s : Bool) (a b : ℚ) : |signed s a - signed s b| = |a - b| := by
  cases s
  · rfl
  · show |-a - -b| = |a - b|
    rw [neg_sub_neg, abs_sub_comm]

theorem magnitude_nonneg (m : Nat) (e : Int) : 0 ≤ (m : ℚ) * 2 ^ e := by
  positivity

theorem isFinite_iff {x : Binary64} : x.isFinite = true ↔ ∃ v, x.value? = some v := by
  cases x with
  | nan | infinite _ => simp [isFinite, value?]
  | finite s m e h => simp [isFinite, value?]

/-! ## One form for each value -/

/-- A number counted in units of a lower power of two. -/
theorem magnitude_eq_of_le (n : Nat) {e f : Int} (h : e ≤ f) :
    (n : ℚ) * 2 ^ f = ((n * 2 ^ (f - e).toNat : Nat) : ℚ) * 2 ^ e := by
  have hsplit : f = ((f - e).toNat : Int) + e := by omega
  rw [Nat.cast_mul, Nat.cast_pow, Nat.cast_ofNat, mul_assoc]
  congr 1
  conv_lhs => rw [hsplit, zpow_add₀ two_ne_zero, zpow_natCast]

/-- A canonical number at a higher exponent is greater than one at a lower. -/
theorem not_magnitude_eq_of_lt {m n : Nat} {e f : Int} (hm : Canonical m e) (hn : Canonical n f)
    (hlt : e < f) : (m : ℚ) * 2 ^ e ≠ n * 2 ^ f := by
  intro h
  rw [magnitude_eq_of_le n hlt.le, mul_left_inj' (zpow_ne_zero e two_ne_zero), Nat.cast_inj] at h
  obtain ⟨hmax, hleast, -, -⟩ := hm
  obtain ⟨-, -, -, hfull⟩ := hn
  have htwo : 2 ^ 1 ≤ 2 ^ (f - e).toNat := Nat.pow_le_pow_right two_pos (by omega)
  have hdouble : n * 2 ^ 1 ≤ m := h ▸ Nat.mul_le_mul_left n htwo
  omega

theorem eq_of_magnitude_eq {m n : Nat} {e f : Int} (hm : Canonical m e) (hn : Canonical n f)
    (h : (m : ℚ) * 2 ^ e = n * 2 ^ f) : m = n ∧ e = f := by
  rcases lt_trichotomy e f with hlt | rfl | hgt
  · exact absurd h (not_magnitude_eq_of_lt hm hn hlt)
  · rw [mul_left_inj' (zpow_ne_zero e two_ne_zero), Nat.cast_inj] at h
    exact ⟨h, rfl⟩
  · exact absurd h.symm (not_magnitude_eq_of_lt hn hm hgt)

/-- Numbers of one value have one form, the sign of zero aside. -/
theorem signed_magnitude_eq_iff {s t : Bool} {m n : Nat} {e f : Int} (hm : Canonical m e) (hn : Canonical n f) :
    signed s (m * 2 ^ e) = signed t (n * 2 ^ f) ↔ (m = 0 ∧ n = 0) ∨ (s = t ∧ m = n ∧ e = f) := by
  constructor
  · intro h
    have hsize : (m : ℚ) * 2 ^ e = n * 2 ^ f := by
      rw [← abs_of_nonneg (magnitude_nonneg m e), ← abs_signed s, h, abs_signed, abs_of_nonneg (magnitude_nonneg n f)]
    obtain ⟨rfl, rfl⟩ := eq_of_magnitude_eq hm hn hsize
    by_cases hst : s = t
    · exact .inr ⟨hst, rfl, rfl⟩
    · -- only zero is its own opposite
      have hzero : (m : ℚ) * 2 ^ e = 0 := by
        cases s <;> cases t <;> simp_all [signed, self_eq_neg, neg_eq_self]
      rw [mul_eq_zero_iff_right (zpow_ne_zero e two_ne_zero), Nat.cast_eq_zero] at hzero
      exact .inl ⟨hzero, hzero⟩
  · rintro (⟨rfl, rfl⟩ | ⟨rfl, rfl, rfl⟩)
    · simp only [Nat.cast_zero, zero_mul, signed_zero]
    · rfl

/-- Comparison as numbers is equality of values, and each infinity is equal to itself. -/
theorem numEq_iff {x y : Binary64} :
    x.numEq y = true ↔ (∃ v, x.value? = some v ∧ y.value? = some v) ∨ ∃ s, x = infinite s ∧ y = infinite s := by
  cases x with
  | nan => simp [numEq, value?]
  | infinite s =>
    cases y with
    | infinite t =>
      simp only [numEq, beq_iff_eq, value?, reduceCtorEq, false_and, exists_false, false_or, infinite.injEq]
      constructor
      · rintro rfl
        exact ⟨s, rfl, rfl⟩
      · rintro ⟨_, rfl, rfl⟩
        rfl
    | nan | finite _ _ _ _ => simp [numEq, value?]
  | finite s m e hm =>
    cases y with
    | nan | infinite _ => simp [numEq, value?]
    | finite t n f hn =>
      have hvalues : (∃ v, (finite s m e hm).value? = some v ∧ (finite t n f hn).value? = some v) ↔
          signed s (m * 2 ^ e) = signed t (n * 2 ^ f) := by
        simp [value?, eq_comm]
      rw [hvalues, signed_magnitude_eq_iff hm hn]
      simp [numEq, and_assoc]

theorem numEq_self_iff {x : Binary64} : x.numEq x = true ↔ x ≠ nan := by
  rw [numEq_iff]
  cases x <;> simp [value?]

theorem numEq_comm (x y : Binary64) : x.numEq y = y.numEq x := by
  rw [Bool.eq_iff_iff, numEq_iff, numEq_iff]
  simp only [and_comm]

theorem numEq_trans {x y z : Binary64} (hxy : x.numEq y = true) (hyz : y.numEq z = true) : x.numEq z = true := by
  rw [numEq_iff] at hxy hyz ⊢
  rcases hxy with ⟨v, hx, hy⟩ | ⟨s, rfl, rfl⟩
  · rcases hyz with ⟨w, hy', hz⟩ | ⟨s, rfl, -⟩
    · obtain rfl : v = w := Option.some.inj (hy.symm.trans hy')
      exact .inl ⟨v, hx, hz⟩
    · cases hy
  · rcases hyz with ⟨w, hy', -⟩ | ⟨t, ht, rfl⟩
    · cases hy'
    · cases ht
      exact .inr ⟨s, rfl, rfl⟩

/-! ## Whole numbers -/

/-- The value as the quotient of two natural numbers, of which one is a power of two. -/
theorem magnitude_eq_div (m : Nat) (e : Int) :
    (m : ℚ) * (2 : ℚ) ^ e = ((m <<< e.toNat : Nat) : ℚ) / ((1 <<< (-e).toNat : Nat) : ℚ) := by
  rw [Nat.shiftLeft_eq, Nat.shiftLeft_eq, one_mul, Nat.cast_mul, Nat.cast_pow, Nat.cast_pow, Nat.cast_ofNat,
    eq_div_iff (pow_ne_zero _ two_ne_zero), mul_assoc, ← zpow_natCast, ← zpow_natCast, ← zpow_add₀ two_ne_zero]
  congr 2
  omega

theorem unit_pos (k : Nat) : 0 < 1 <<< k := by
  rw [Nat.one_shiftLeft]
  exact Nat.two_pow_pos k

theorem magnitude_eq_natCast_iff {m k : Nat} {e : Int} :
    (m : ℚ) * 2 ^ e = k ↔ m <<< e.toNat = k * (1 <<< (-e).toNat) := by
  have hunit : ((1 <<< (-e).toNat : Nat) : ℚ) ≠ 0 := Nat.cast_ne_zero.mpr (unit_pos _).ne'
  rw [magnitude_eq_div, div_eq_iff hunit, ← Nat.cast_mul, Nat.cast_inj]

/-- Either nothing is left behind the point or nothing is moved up. -/
theorem mod_unit (m : Nat) (e : Int) :
    m % (1 <<< (-e).toNat) = 0 ↔ m <<< e.toNat % (1 <<< (-e).toNat) = 0 := by
  rcases le_total 0 e with h | h
  · have hdown : (-e).toNat = 0 := by omega
    rw [hdown, Nat.shiftLeft_zero, Nat.mod_one, Nat.mod_one]
  · have hup : e.toNat = 0 := by omega
    rw [hup, Nat.shiftLeft_zero]

theorem signed_natCast (s : Bool) (n : Nat) : signed s n = ((if s then -(n : Int) else n : Int) : ℚ) := by
  cases s <;> simp [signed]

theorem whole?_eq_some_iff {x : Binary64} {i : Int} : x.whole? = some i ↔ x.value? = some (i : ℚ) := by
  cases x with
  | nan | infinite _ => simp [whole?, value?]
  | finite s m e h =>
    have hshift : (m <<< e.toNat) >>> (-e).toNat = m <<< e.toNat / (1 <<< (-e).toNat) := by
      rw [Nat.shiftRight_eq_div_pow, Nat.one_shiftLeft]
    simp only [whole?, truncate?, mod_unit m e, hshift, value?, Option.some_inj]
    constructor
    · intro hi
      split at hi
      · rename_i hwhole
        have hquotient := Nat.div_mul_cancel (Nat.dvd_of_mod_eq_zero hwhole)
        rw [magnitude_eq_natCast_iff.mpr hquotient.symm, signed_natCast, Int.cast_inj]
        exact Option.some.inj hi
      · cases hi
    · intro hi
      have hsize : (m : ℚ) * 2 ^ e = (i.natAbs : Nat) := by
        rw [← abs_of_nonneg (magnitude_nonneg m e), ← abs_signed s, hi, Nat.cast_natAbs, Int.cast_abs]
      have hdigits := magnitude_eq_natCast_iff.mp hsize
      rw [hsize, signed_natCast, Int.cast_inj] at hi
      rw [hdigits, Nat.mul_mod_left, if_pos rfl, Nat.mul_div_cancel _ (unit_pos _), hi]

theorem truncate?_of_value? {x : Binary64} {i : Int} (h : x.value? = some (i : ℚ)) : x.truncate? = some i := by
  have hwhole := whole?_eq_some_iff.mpr h
  cases x with
  | nan | infinite _ => cases hwhole
  | finite s m e hcanonical =>
    rw [whole?] at hwhole
    split at hwhole
    · exact hwhole
    · cases hwhole

theorem isWithin_iff {x : Binary64} {bound : Nat} :
    x.isWithin bound = true ↔ ∃ v, x.value? = some v ∧ |v| ≤ bound := by
  cases x with
  | nan | infinite _ => simp [isWithin, value?]
  | finite s m e h =>
    have hunit : 0 < ((1 <<< (-e).toNat : Nat) : ℚ) := Nat.cast_pos.mpr (unit_pos _)
    have hbound : bound <<< (-e).toNat = bound * (1 <<< (-e).toNat) := by
      rw [Nat.shiftLeft_eq, Nat.one_shiftLeft]
    simp only [isWithin, value?, Option.some_inj, exists_eq_left', decide_eq_true_eq]
    rw [abs_signed, abs_of_nonneg (magnitude_nonneg m e), magnitude_eq_div, div_le_iff₀ hunit, hbound,
      ← Nat.cast_mul, Nat.cast_le]

end RequestGuard.Binary64
