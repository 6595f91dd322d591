import Mathlib.Tactic.NormNum
import RequestGuard.Number.Binary64

/-!
# Rounding whole numbers

A whole number is rounded at the scale at which it has 53 bits. Its quotient at that scale lies
between two powers of two, and so does what the quotient is rounded to. So the number that comes out
is finite, unless it is out of range (`isFinite_ofInt`).
-/

namespace RequestGuard.Binary64

/-! ## The rounded quotient -/

theorem le_divHalfEven {num den a : Nat} (hden : 0 < den) (h : a * den ≤ num) :
    a ≤ divHalfEven num den := by
  have hquotient : a ≤ num / den := (Nat.le_div_iff_mul_le hden).mpr h
  simp only [divHalfEven]
  split_ifs <;> omega

theorem divHalfEven_le {num den b : Nat} (hden : 0 < den) (h : num < b * den) :
    divHalfEven num den ≤ b := by
  have hquotient : num / den < b := (Nat.div_lt_iff_lt_mul hden).mpr h
  simp only [divHalfEven]
  split_ifs <;> omega

/-! ## The scale -/

theorem ratioLog2_one {n : Nat} (hn : n ≠ 0) : ratioLog2 n 1 = n.log2 := by
  have hpow : 1 <<< n.log2 ≤ n := by
    rw [Nat.one_shiftLeft]
    exact Nat.log2_self_le hn
  have hone : Nat.log2 1 = 0 := by decide
  unfold ratioLog2
  simp only [hone, Nat.cast_zero, sub_zero, Int.toNat_natCast]
  rw [if_pos]
  rw [Nat.shiftLeft_eq n]
  exact hpow.trans (Nat.le_mul_of_pos_right n (Nat.two_pow_pos _))

/-- At the scale of its logarithm a number has 53 bits. -/
theorem scaled_bounds {n : Nat} (hn : n ≠ 0) :
    0x10000000000000 * (1 <<< (n.log2 - 52)) ≤ n <<< (52 - n.log2) ∧
      n <<< (52 - n.log2) < 0x20000000000000 * (1 <<< (n.log2 - 52)) := by
  have hlow : 2 ^ n.log2 ≤ n := Nat.log2_self_le hn
  have hhigh : n < 2 ^ (n.log2 + 1) := Nat.lt_log2_self
  have h52 : 0x10000000000000 = 2 ^ 52 := by norm_num
  have h53 : 0x20000000000000 = 2 ^ 53 := by norm_num
  rw [h52, h53, Nat.one_shiftLeft, Nat.shiftLeft_eq, ← pow_add, ← pow_add]
  rcases Nat.le_total n.log2 52 with h | h
  · -- The number is moved up, by as many places as it lacks.
    have hden : n.log2 - 52 = 0 := Nat.sub_eq_zero_of_le h
    rw [hden]
    constructor
    · calc 2 ^ (52 + 0) = 2 ^ n.log2 * 2 ^ (52 - n.log2) := by rw [← pow_add]; congr 1; omega
        _ ≤ n * 2 ^ (52 - n.log2) := Nat.mul_le_mul_right _ hlow
    · calc n * 2 ^ (52 - n.log2) < 2 ^ (n.log2 + 1) * 2 ^ (52 - n.log2) :=
            Nat.mul_lt_mul_of_pos_right hhigh (Nat.two_pow_pos _)
        _ = 2 ^ (53 + 0) := by rw [← pow_add]; congr 1; omega
  · -- The number stands as it is, and the unit is moved up.
    have hnum : 52 - n.log2 = 0 := Nat.sub_eq_zero_of_le h
    rw [hnum, pow_zero, mul_one]
    have hfrom : 52 + (n.log2 - 52) = n.log2 := by omega
    have hto : 53 + (n.log2 - 52) = n.log2 + 1 := by omega
    rw [hfrom, hto]
    exact ⟨hlow, hhigh⟩

/-! ## Whole numbers -/

theorem isFinite_ofParts {negative : Bool} {m : Nat} {e : Int} (h : Canonical m e) :
    (ofParts negative m e).isFinite = true := by
  rw [ofParts, dif_pos h]
  rfl

theorem isFinite_ofRatio_one (negative : Bool) {n : Nat} (h : n < 0x10000000000000000) :
    (ofRatio negative n 1).isFinite = true := by
  by_cases hn : n = 0
  · subst hn
    rfl
  have hlog : n.log2 < 64 := (Nat.log2_lt hn).mpr (by omega)
  have he : max (-1074) (ratioLog2 n 1 - 52) = (n.log2 : Int) - 52 := by
    rw [ratioLog2_one hn]
    omega
  have hup : (-((n.log2 : Int) - 52)).toNat = 52 - n.log2 := by omega
  have hdown : ((n.log2 : Int) - 52).toNat = n.log2 - 52 := by omega
  have hden : 0 < 1 <<< (n.log2 - 52) := by
    rw [Nat.one_shiftLeft]
    exact Nat.two_pow_pos _
  obtain ⟨hlow, hhigh⟩ := scaled_bounds hn
  have hmin := le_divHalfEven hden hlow
  have hmax := divHalfEven_le hden hhigh
  simp only [ofRatio, if_neg hn, he, hup, hdown]
  -- A significand that is rounded up to the next power of two is that power at the next scale.
  split_ifs with hcarry
  · apply isFinite_ofParts
    unfold Canonical
    omega
  · apply isFinite_ofParts
    unfold Canonical
    omega

/-- A whole number below `2^64`, with either sign, is rounded to a finite number. -/
theorem isFinite_ofInt {i : Int} (h : i.natAbs < 0x10000000000000000) :
    (ofInt i).isFinite = true :=
  isFinite_ofRatio_one (i < 0) h

end RequestGuard.Binary64
