import Mathlib.Tactic.FieldSimp
import Mathlib.Tactic.Linarith
import Mathlib.Tactic.Ring
import RequestGuard.Proofs.Number.Rounding
import RequestGuard.Proofs.Number.Value

/-!
# The nearest number

`ofRatio` gives the binary64 number that is nearest to a quotient, and of two that are equally near
the one whose significand is even (`isNearest_ofRatio`). With it whole numbers and decimal ones are
rounded to nearest (`isNearest_ofInt`, `isNearest_ofDecimal`), and a whole number of 53 bits is exact.
-/

namespace RequestGuard.Binary64

/-! ## Nearest to a rational number -/

/-- The significand of a finite number. -/
def significand : Binary64 → Nat
  | .finite _ m _ _ => m
  | _ => 0

/-- No finite number is nearer to `q`, and another that is as near has an odd significand, where this
one's is even. -/
def IsNearest (x : Binary64) (q : ℚ) : Prop :=
  ∃ v, x.value? = some v ∧ ∀ (y : Binary64) (w : ℚ), y.value? = some w →
    |v - q| ≤ |w - q| ∧ (|v - q| = |w - q| → w = v ∨ x.significand % 2 = 0 ∧ y.significand % 2 = 1)

/-- There is one nearest value. -/
theorem IsNearest.value?_eq {x y : Binary64} {q : ℚ} (hx : x.IsNearest q) (hy : y.IsNearest q) :
    x.value? = y.value? := by
  obtain ⟨v, hv, hxmin⟩ := hx
  obtain ⟨w, hw, hymin⟩ := hy
  obtain ⟨hle, hxtie⟩ := hxmin y w hw
  obtain ⟨hge, hytie⟩ := hymin x v hv
  have heq : |v - q| = |w - q| := le_antisymm hle hge
  rcases hxtie heq with rfl | ⟨heven, -⟩
  · rw [hv, hw]
  · rcases hytie heq.symm with rfl | ⟨-, hodd⟩
    · rw [hv, hw]
    · omega

/-- Numbers of one value are alike near to anything. -/
theorem IsNearest.of_value?_eq {x y : Binary64} {q : ℚ} (hx : x.IsNearest q) (hvalue : y.value? = x.value?) :
    y.IsNearest q := by
  obtain ⟨v, hv, hmin⟩ := hx
  have hsignificand : y.significand = x.significand := by
    cases x with
    | nan | infinite _ => cases hv
    | finite s m e hm =>
      cases y with
      | nan | infinite _ => cases hvalue
      | finite t n f hn =>
        rcases (signed_magnitude_eq_iff hn hm).mp (Option.some.inj hvalue) with ⟨rfl, rfl⟩ | ⟨-, rfl, -⟩
        · rfl
        · rfl
  refine ⟨v, hvalue.trans hv, ?_⟩
  rwa [hsignificand]

/-- What a number denotes exactly it is nearest to, and no number of another value is. -/
theorem IsNearest.value?_eq_of_exists {x y : Binary64} {q : ℚ} (hx : x.IsNearest q) (hy : y.value? = some q) :
    x.value? = some q := by
  obtain ⟨v, hv, hmin⟩ := hx
  have hzero : |v - q| ≤ 0 := by
    have hle := (hmin y q hy).1
    rwa [sub_self, abs_zero] at hle
  rw [hv, sub_eq_zero.mp (abs_nonpos_iff.mp hzero)]

/-! ## The nearest whole number -/

/-- Rounding a quotient leaves it by a half at most, and by a half only to an even number. -/
theorem abs_divHalfEven_sub (num : Nat) {den : Nat} (hden : 0 < den) :
    |(divHalfEven num den : ℚ) - num / den| ≤ 1 / 2 ∧
      (|(divHalfEven num den : ℚ) - num / den| = 1 / 2 → divHalfEven num den % 2 = 0) := by
  have hpos : (0 : ℚ) < den := Nat.cast_pos.mpr hden
  have hsplit : (num : ℚ) / den = ((num / den : Nat) : ℚ) + ((num % den : Nat) : ℚ) / den := by
    rw [eq_comm, ← eq_sub_iff_add_eq', div_eq_iff hpos.ne', sub_mul, div_mul_cancel₀ _ hpos.ne', eq_sub_iff_add_eq']
    exact_mod_cast Nat.div_add_mod' num den
  have hrest : (0 : ℚ) ≤ ((num % den : Nat) : ℚ) / den := by positivity
  rw [hsplit]
  simp only [divHalfEven]
  -- less than a half is dropped, more is made up, and a half goes to the even neighbour
  split_ifs with hbelow habove
  · have hhalf : ((num % den : Nat) : ℚ) / den < 1 / 2 := by
      rw [div_lt_div_iff₀ hpos two_pos, one_mul, mul_comm]
      exact_mod_cast hbelow
    rw [sub_add_cancel_left, abs_neg, abs_of_nonneg hrest]
    exact ⟨hhalf.le, fun heq => absurd heq hhalf.ne⟩
  · have hhalf : 1 / 2 < ((num % den : Nat) : ℚ) / den := by
      rw [div_lt_div_iff₀ two_pos hpos, one_mul, mul_comm]
      exact_mod_cast habove
    have hone : ((num % den : Nat) : ℚ) / den ≤ 1 := by
      rw [div_le_one hpos]
      exact_mod_cast (Nat.mod_lt num hden).le
    rw [Nat.cast_add, Nat.cast_one, add_sub_add_left_eq_sub, abs_of_nonneg (sub_nonneg.mpr hone)]
    exact ⟨by linarith, fun heq => by linarith⟩
  · have hhalf : ((num % den : Nat) : ℚ) / den = 1 / 2 := by
      rw [div_eq_div_iff hpos.ne' two_ne_zero, one_mul]
      exact_mod_cast (by omega : num % den * 2 = den)
    have hparity : (num / den) % 2 = 0 ∨ (num / den) % 2 = 1 := by omega
    rw [hhalf, Nat.cast_add, add_sub_add_left_eq_sub]
    constructor
    · rcases hparity with h | h <;> rw [h] <;> norm_num
    · intro _
      omega

/-- A whole number that is a half away at most is nearest among the whole numbers, and only a
neighbour can be as near. -/
theorem nearest_of_abs_sub_le {t : ℚ} {k : Int} (h : |(k : ℚ) - t| ≤ 1 / 2) (j : Int) :
    |(k : ℚ) - t| ≤ |(j : ℚ) - t| ∧
      (|(k : ℚ) - t| = |(j : ℚ) - t| → j = k ∨ |(k : ℚ) - t| = 1 / 2 ∧ (j = k + 1 ∨ j = k - 1)) := by
  by_cases hjk : j = k
  · subst hjk
    exact ⟨le_rfl, fun _ => .inl rfl⟩
  · have hone : (1 : ℚ) ≤ |(j : ℚ) - k| := by
      exact_mod_cast Int.one_le_abs (sub_ne_zero.mpr hjk)
    have htriangle : |(j : ℚ) - k| ≤ |(j : ℚ) - t| + |(k : ℚ) - t| := by
      rw [abs_sub_comm (k : ℚ) t]
      exact abs_sub_le _ _ _
    refine ⟨by linarith, fun heq => .inr ⟨by linarith, ?_⟩⟩
    have hnext : |j - k| ≤ 1 := by
      have hle : |(j : ℚ) - k| ≤ 1 := by linarith
      exact_mod_cast hle
    rw [abs_le] at hnext
    omega

/-! ## The scale of a quotient -/

/-- The exponent of a power of two as a shift of the one side or the other. -/
theorem shiftLeft_div_shiftLeft (num den : Nat) (e : Int) :
    ((num <<< (-e).toNat : Nat) : ℚ) / ((den <<< e.toNat : Nat) : ℚ) = num / den / (2 : ℚ) ^ e := by
  have hunit : (2 : ℚ) ^ e = 2 ^ e.toNat / 2 ^ (-e).toNat := by
    rw [eq_div_iff (pow_ne_zero _ two_ne_zero), ← zpow_natCast, ← zpow_natCast, ← zpow_add₀ two_ne_zero]
    congr 1
    omega
  rw [Nat.shiftLeft_eq, Nat.shiftLeft_eq, hunit]
  push_cast
  field_simp

/-- The logarithm brackets the quotient between two powers of two. -/
theorem ratioLog2_bounds {num den : Nat} (hnum : num ≠ 0) (hden : 0 < den) :
    (2 : ℚ) ^ ratioLog2 num den ≤ num / den ∧ (num : ℚ) / den < 2 ^ (ratioLog2 num den + 1) := by
  have hpos : (0 : ℚ) < den := Nat.cast_pos.mpr hden
  have hnumLow : (2 : ℚ) ^ (num.log2 : Int) ≤ num := by
    rw [zpow_natCast]
    exact_mod_cast Nat.log2_self_le hnum
  have hnumHigh : (num : ℚ) < 2 ^ ((num.log2 : Int) + 1) := by
    exact_mod_cast Nat.lt_log2_self (n := num)
  have hdenLow : (2 : ℚ) ^ (den.log2 : Int) ≤ den := by
    rw [zpow_natCast]
    exact_mod_cast Nat.log2_self_le hden.ne'
  have hdenHigh : (den : ℚ) < 2 ^ ((den.log2 : Int) + 1) := by
    exact_mod_cast Nat.lt_log2_self (n := den)
  -- the shift compares the quotient with the power between the two bounds
  have hcompare (k : Int) : den <<< k.toNat ≤ num <<< (-k).toNat ↔ (2 : ℚ) ^ k ≤ num / den := by
    have hshift : (0 : ℚ) < ((den <<< k.toNat : Nat) : ℚ) := by
      rw [Nat.shiftLeft_eq]
      positivity
    rw [← one_le_div (zpow_pos two_pos k : (0 : ℚ) < 2 ^ k), ← shiftLeft_div_shiftLeft, one_le_div hshift, Nat.cast_le]
  have hlow : (2 : ℚ) ^ ((num.log2 : Int) - den.log2 - 1) ≤ num / den := by
    rw [le_div_iff₀ hpos]
    calc (2 : ℚ) ^ ((num.log2 : Int) - den.log2 - 1) * den
        ≤ 2 ^ ((num.log2 : Int) - den.log2 - 1) * 2 ^ ((den.log2 : Int) + 1) :=
          mul_le_mul_of_nonneg_left hdenHigh.le (zpow_nonneg two_pos.le _)
      _ = 2 ^ (num.log2 : Int) := by rw [← zpow_add₀ two_ne_zero]; congr 1; ring
      _ ≤ num := hnumLow
  have hhigh : (num : ℚ) / den < 2 ^ ((num.log2 : Int) - den.log2 + 1) := by
    rw [div_lt_iff₀ hpos]
    calc (num : ℚ) < 2 ^ ((num.log2 : Int) + 1) := hnumHigh
      _ = 2 ^ ((num.log2 : Int) - den.log2 + 1) * 2 ^ (den.log2 : Int) := by
          rw [← zpow_add₀ two_ne_zero]; congr 1; ring
      _ ≤ 2 ^ ((num.log2 : Int) - den.log2 + 1) * den :=
          mul_le_mul_of_nonneg_left hdenLow (zpow_nonneg two_pos.le _)
  simp only [ratioLog2]
  split_ifs with hbetween
  · exact ⟨(hcompare _).mp hbetween, hhigh⟩
  · rw [sub_add_cancel]
    exact ⟨hlow, not_le.mp fun hle => hbetween ((hcompare _).mpr hle)⟩

/-- The exponent of the unit that a quotient is counted in. -/
def unitExponent (num den : Nat) : Int :=
  max (-1074) (ratioLog2 num den - 52)

/-- In its unit a quotient has 53 bits, or fewer where the unit is the least one. -/
theorem unitExponent_bounds {num den : Nat} (hnum : num ≠ 0) (hden : 0 < den) :
    (num : ℚ) / den / 2 ^ unitExponent num den < 2 ^ 53 ∧
      (unitExponent num den = -1074 ∨ 2 ^ 52 ≤ (num : ℚ) / den / 2 ^ unitExponent num den) := by
  obtain ⟨hlow, hhigh⟩ := ratioLog2_bounds hnum hden
  have hunit : (0 : ℚ) < 2 ^ unitExponent num den := zpow_pos two_pos _
  have hpower (k : Nat) : (2 : ℚ) ^ k * 2 ^ unitExponent num den = 2 ^ (k + unitExponent num den : Int) := by
    rw [zpow_add₀ two_ne_zero, zpow_natCast]
  rw [div_lt_iff₀ hunit, le_div_iff₀ hunit, hpower, hpower]
  constructor
  · refine hhigh.trans_le (zpow_le_zpow_right₀ one_le_two ?_)
    unfold unitExponent
    omega
  · rcases le_total (ratioLog2 num den - 52) (-1074) with h | h
    · exact .inl (max_eq_left h)
    · right
      rw [unitExponent, max_eq_right h]
      refine le_trans (zpow_le_zpow_right₀ one_le_two ?_) hlow
      omega

/-! ## The nearest number to a quotient -/

/-- The count of units that a quotient is rounded to. -/
def units (num den : Nat) : Nat :=
  divHalfEven (num <<< (-unitExponent num den).toNat) (den <<< (unitExponent num den).toNat)

theorem abs_units_sub (num : Nat) {den : Nat} (hden : 0 < den) :
    |(units num den : ℚ) - num / den / 2 ^ unitExponent num den| ≤ 1 / 2 ∧
      (|(units num den : ℚ) - num / den / 2 ^ unitExponent num den| = 1 / 2 → units num den % 2 = 0) := by
  have hpos : 0 < den <<< (unitExponent num den).toNat := by
    rw [Nat.shiftLeft_eq]
    positivity
  have hrounded := abs_divHalfEven_sub (num <<< (-unitExponent num den).toNat) hpos
  rwa [shiftLeft_div_shiftLeft] at hrounded

/-- A finite rounded quotient has its units for value, whether its significand is their count or, where
that has 54 bits, half of it. -/
theorem ofRatio_eq_units {negative : Bool} {num den : Nat} (hnum : num ≠ 0)
    (hfinite : (ofRatio negative num den).isFinite = true) :
    (ofRatio negative num den).value? = some (signed negative (units num den * 2 ^ unitExponent num den)) ∧
      (units num den % 2 = 0 → (ofRatio negative num den).significand % 2 = 0) := by
  have hunfold : ofRatio negative num den =
      if units num den = 0x20000000000000 then ofParts negative 0x10000000000000 (unitExponent num den + 1)
      else ofParts negative (units num den) (unitExponent num den) := by
    rw [ofRatio, if_neg hnum]
    rfl
  rw [hunfold] at hfinite ⊢
  split_ifs at hfinite ⊢ with hcarry
  · rw [ofParts] at hfinite ⊢
    split_ifs at hfinite ⊢ with hcanonical
    · refine ⟨?_, fun _ => by norm_num [significand]⟩
      rw [value?, hcarry, zpow_add_one₀ two_ne_zero]
      congr 2
      push_cast
      ring
    · cases hfinite
  · rw [ofParts] at hfinite ⊢
    split_ifs at hfinite ⊢ with hcanonical
    · exact ⟨rfl, id⟩
    · cases hfinite

/-- A number at the unit's exponent or a higher one counts in units, oddly only if its significand is
odd. -/
theorem exists_units_of_le (s t : Bool) (n : Nat) {e f : Int} (h : e ≤ f) :
    ∃ j : Int, signed s (signed t (n * 2 ^ f)) = j * 2 ^ e ∧ (j % 2 = 1 → n % 2 = 1) := by
  have hparity : (n * 2 ^ (f - e).toNat) % 2 = 1 → n % 2 = 1 := fun hodd => by
    rw [Nat.mul_mod] at hodd
    rcases Nat.mod_two_eq_zero_or_one n with heven | hodd'
    · rw [heven, Nat.zero_mul] at hodd
      cases hodd
    · exact hodd'
  rw [magnitude_eq_of_le n h]
  generalize n * 2 ^ (f - e).toNat = c at hparity
  by_cases hst : s = t
  · subst hst
    refine ⟨c, ?_, by omega⟩
    rw [signed_signed, Int.cast_natCast]
  · refine ⟨-c, ?_, by omega⟩
    cases s <;> cases t <;> simp_all [signed]

/-- A number below the exponent of the unit is less than `2^52` units. -/
theorem signed_magnitude_lt_of_lt (s t : Bool) {n : Nat} {e f : Int} (hn : n < 2 ^ 53) (h : f < e) :
    signed s (signed t (n * 2 ^ f)) < 2 ^ 52 * 2 ^ e := by
  have hsize : |signed s (signed t ((n : ℚ) * 2 ^ f))| = n * 2 ^ f := by
    rw [abs_signed, abs_signed, abs_of_nonneg (magnitude_nonneg n f)]
  have hcast : (n : ℚ) < 2 ^ 53 := by exact_mod_cast hn
  have hdouble : (2 : ℚ) ^ 53 * 2 ^ f = 2 ^ 52 * 2 ^ (f + 1) := by
    rw [zpow_add_one₀ two_ne_zero]
    ring
  have hnext : (2 : ℚ) ^ (f + 1) ≤ 2 ^ e := zpow_le_zpow_right₀ one_le_two h
  calc signed s (signed t ((n : ℚ) * 2 ^ f)) ≤ n * 2 ^ f := (le_abs_self _).trans_eq hsize
    _ < 2 ^ 53 * 2 ^ f := mul_lt_mul_of_pos_right hcast (zpow_pos two_pos f)
    _ = 2 ^ 52 * 2 ^ (f + 1) := hdouble
    _ ≤ 2 ^ 52 * 2 ^ e := mul_le_mul_of_nonneg_left hnext (by positivity)

/-- The distance from the quotient, in units. -/
theorem abs_signed_units_sub (negative : Bool) (num den : Nat) (a : ℚ) :
    |signed negative (a * 2 ^ unitExponent num den) - signed negative (num / den)| =
      |a - num / den / 2 ^ unitExponent num den| * 2 ^ unitExponent num den := by
  have hunit : (0 : ℚ) < 2 ^ unitExponent num den := zpow_pos two_pos _
  rw [abs_signed_sub, ← abs_of_pos hunit, ← abs_mul, abs_of_pos hunit, sub_mul, div_mul_cancel₀ _ hunit.ne']

/-- A number on the grid of the unit is no nearer to the quotient than the rounded count of units, and as
near only if that is even and its own significand odd. -/
theorem units_nearest_of_le (negative t : Bool) {num den n : Nat} {f : Int} (hden : 0 < den)
    (hle : unitExponent num den ≤ f) :
    |signed negative (units num den * 2 ^ unitExponent num den) - signed negative (num / den)| ≤
        |signed t (n * 2 ^ f) - signed negative (num / den)| ∧
      (|signed negative (units num den * 2 ^ unitExponent num den) - signed negative (num / den)| =
          |signed t (n * 2 ^ f) - signed negative (num / den)| →
        signed t (n * 2 ^ f) = signed negative (units num den * 2 ^ unitExponent num den) ∨
          units num den % 2 = 0 ∧ n % 2 = 1) := by
  have hunit : (0 : ℚ) < 2 ^ unitExponent num den := zpow_pos two_pos _
  obtain ⟨hhalf, heven⟩ := abs_units_sub num hden
  obtain ⟨j, hj, hodd⟩ := exists_units_of_le negative t n hle
  have hcompetitor : signed t ((n : ℚ) * 2 ^ f) = signed negative (j * 2 ^ unitExponent num den) := by
    rw [← hj, signed_signed]
  obtain ⟨hmin, htie⟩ := nearest_of_abs_sub_le (k := units num den) (by exact_mod_cast hhalf) j
  rw [Int.cast_natCast] at hmin htie
  -- in units both are whole counts, of which the rounded one is nearest
  rw [hcompetitor, abs_signed_units_sub, abs_signed_units_sub]
  refine ⟨mul_le_mul_of_nonneg_right hmin hunit.le, fun heq => ?_⟩
  rcases htie (mul_right_cancel₀ hunit.ne' heq) with rfl | ⟨htied, hnext⟩
  · exact .inl (by rw [Int.cast_natCast])
  · have hunits := heven htied
    exact .inr ⟨hunits, hodd (by omega)⟩

/-- A number below the grid of the unit is farther from the quotient than the rounded count of units: the
least full count lies between the two. -/
theorem units_nearer_of_lt (negative t : Bool) {num den n : Nat} {f : Int} (hnum : num ≠ 0) (hden : 0 < den)
    (hn : Canonical n f) (hlt : f < unitExponent num den) :
    |signed negative (units num den * 2 ^ unitExponent num den) - signed negative (num / den)| <
      |signed t (n * 2 ^ f) - signed negative (num / den)| := by
  have hunit : (0 : ℚ) < 2 ^ unitExponent num den := zpow_pos two_pos _
  obtain ⟨hbits, hleast, -, -⟩ := hn
  have hfull : 2 ^ 52 ≤ (num : ℚ) / den / 2 ^ unitExponent num den :=
    (unitExponent_bounds hnum hden).2.resolve_left (by omega)
  have hbelow := signed_magnitude_lt_of_lt negative t (by omega : n < 2 ^ 53) hlt
  have hfirst := (nearest_of_abs_sub_le (k := units num den) (by exact_mod_cast (abs_units_sub num hden).1) (2 ^ 52)).1
  rw [Int.cast_natCast, Int.cast_pow, Int.cast_ofNat, abs_sub_comm (2 ^ 52), abs_of_nonneg (sub_nonneg.mpr hfull)]
    at hfirst
  have hquotient : (num : ℚ) / den / 2 ^ unitExponent num den * 2 ^ unitExponent num den = num / den :=
    div_mul_cancel₀ _ hunit.ne'
  have hcompetitor : |signed t ((n : ℚ) * 2 ^ f) - signed negative (num / den)| =
      |num / den - signed negative (signed t (n * 2 ^ f))| := by
    rw [← abs_signed_sub negative, signed_signed, abs_sub_comm]
  rw [abs_signed_units_sub, hcompetitor]
  calc |(units num den : ℚ) - num / den / 2 ^ unitExponent num den| * 2 ^ unitExponent num den
      ≤ (num / den / 2 ^ unitExponent num den - 2 ^ 52) * 2 ^ unitExponent num den :=
        mul_le_mul_of_nonneg_right hfirst hunit.le
    _ = num / den - 2 ^ 52 * 2 ^ unitExponent num den := by rw [sub_mul, hquotient]
    _ < num / den - signed negative (signed t (n * 2 ^ f)) := sub_lt_sub_left hbelow _
    _ ≤ |num / den - signed negative (signed t (n * 2 ^ f))| := le_abs_self _

/-! ### Zero -/

/-- Nothing but zero is smaller than the least number. -/
theorem le_abs_of_value? {x : Binary64} {v : ℚ} (hx : x.value? = some v) (hne : v ≠ 0) : 2 ^ (-1074 : Int) ≤ |v| := by
  cases x with
  | nan | infinite _ => cases hx
  | finite s m e hm =>
    obtain rfl : signed s (m * 2 ^ e) = v := Option.some.inj hx
    have hone : (1 : ℚ) ≤ m := by
      rcases Nat.eq_zero_or_pos m with rfl | hpos
      · rw [Nat.cast_zero, zero_mul, signed_zero] at hne
        exact absurd rfl hne
      · exact_mod_cast hpos
    rw [abs_signed, abs_of_nonneg (magnitude_nonneg m e)]
    calc (2 : ℚ) ^ (-1074 : Int) ≤ 2 ^ e := zpow_le_zpow_right₀ one_le_two hm.2.1
      _ = 1 * 2 ^ e := (one_mul _).symm
      _ ≤ m * 2 ^ e := mul_le_mul_of_nonneg_right hone (zpow_nonneg two_pos.le e)

/-- What is less than half the least number is nearest to zero. -/
theorem isNearest_zero (s : Bool) {q : ℚ} (h : 2 * |q| < 2 ^ (-1074 : Int)) : (zero s).IsNearest q := by
  refine ⟨0, ?_, fun y w hw => ?_⟩
  · rw [zero, value?, Nat.cast_zero, zero_mul, signed_zero]
  · rw [zero_sub, abs_neg]
    by_cases hzero : w = 0
    · subst hzero
      rw [zero_sub, abs_neg]
      exact ⟨le_rfl, fun _ => .inl rfl⟩
    · have hleast := le_abs_of_value? hw hzero
      have htriangle : |w| - |q| ≤ |w - q| := abs_sub_abs_le_abs_sub w q
      have hlt : |q| < |w - q| := by linarith
      exact ⟨hlt.le, fun heq => absurd heq hlt.ne⟩

/-! ### Quotients -/

/-- **Rounding is to nearest, ties to even.** -/
theorem isNearest_ofRatio (negative : Bool) {num den : Nat} (hden : 0 < den)
    (hfinite : (ofRatio negative num den).isFinite = true) :
    (ofRatio negative num den).IsNearest (signed negative (num / den)) := by
  by_cases hnum : num = 0
  · subst hnum
    rw [ofRatio, if_pos rfl, Nat.cast_zero, zero_div, signed_zero]
    exact isNearest_zero negative (by rw [abs_zero, mul_zero]; exact zpow_pos two_pos _)
  obtain ⟨hvalue, heven⟩ := ofRatio_eq_units hnum hfinite
  refine ⟨_, hvalue, fun y w hw => ?_⟩
  cases y with
  | nan | infinite _ => cases hw
  | finite t n f hn =>
    obtain rfl : signed t (n * 2 ^ f) = w := Option.some.inj hw
    rcases le_or_gt (unitExponent num den) f with hle | hlt
    · obtain ⟨hmin, htie⟩ := units_nearest_of_le negative t (n := n) hden hle
      exact ⟨hmin, fun heq => (htie heq).imp_right (And.imp_left heven)⟩
    · have hstrict := units_nearer_of_lt negative t hnum hden hn hlt
      exact ⟨hstrict.le, fun heq => absurd heq hstrict.ne⟩

/-! ### Decimal numbers -/

/-- A decimal number as the quotient of two natural numbers, of which one is a power of ten. -/
theorem decimal_eq_div (digits : Nat) (exponent : Int) :
    (digits : ℚ) * 10 ^ exponent =
      ((digits * Nat.pow 10 exponent.toNat : Nat) : ℚ) / ((Nat.pow 10 (-exponent).toNat : Nat) : ℚ) := by
  have hten : (10 : ℚ) ≠ 0 := by norm_num
  rw [Nat.pow_eq, Nat.pow_eq, Nat.cast_mul, Nat.cast_pow, Nat.cast_pow, Nat.cast_ofNat, eq_div_iff (pow_ne_zero _ hten),
    mul_assoc, ← zpow_natCast, ← zpow_natCast, ← zpow_add₀ hten]
  congr 2
  omega

/-- Three binary digits are worth one decimal digit at most. -/
theorem two_pow_le_ten_pow {k l : Nat} (h : k ≤ 3 * l) : 2 ^ k ≤ 10 ^ l := by
  calc 2 ^ k ≤ 2 ^ (3 * l) := Nat.pow_le_pow_right two_pos h
    _ = 8 ^ l := Nat.pow_mul 2 3 l
    _ ≤ 10 ^ l := Nat.pow_le_pow_left (by decide) l

theorem lt_ten_pow (n : Nat) : n < 10 ^ (n.log2 / 3 + 1) :=
  Nat.lt_log2_self.trans_le (two_pow_le_ten_pow (by omega))

/-- Below `10 ^ -400` every number is nearest to zero. -/
theorem two_mul_lt_least {q : ℚ} {k : Int} (hq : q < 10 ^ k) (hk : k < -400) : 2 * q < 2 ^ (-1074 : Int) := by
  have hpowers : 2 ^ 1074 ≤ 10 ^ 400 := two_pow_le_ten_pow (by decide)
  have hbound : (10 : ℚ) ^ (-400 : Int) ≤ 2 ^ (-1074 : Int) := by
    rw [zpow_neg, zpow_neg]
    apply inv_anti₀ (zpow_pos two_pos _)
    exact_mod_cast hpowers
  have hstep : (10 : ℚ) ^ k * 10 ≤ 10 ^ (-400 : Int) := by
    rw [← zpow_add_one₀ (by norm_num)]
    exact zpow_le_zpow_right₀ (by norm_num) (by omega)
  have hpos : (0 : ℚ) < 10 ^ k := zpow_pos (by norm_num) k
  linarith

/-- **A decimal number is rounded to nearest.** The two bounds of the exponent leave out no number that
is neither infinite nor zero. -/
theorem isNearest_ofDecimal (negative : Bool) {digits : Nat} {exponent : Int}
    (hfinite : (ofDecimal negative digits exponent).isFinite = true) :
    (ofDecimal negative digits exponent).IsNearest (signed negative (digits * 10 ^ exponent)) := by
  rw [ofDecimal] at hfinite ⊢
  split_ifs at hfinite ⊢ with hzero hlarge hsmall
  · rw [hzero, Nat.cast_zero, zero_mul, signed_zero]
    exact isNearest_zero negative (by rw [abs_zero, mul_zero]; exact zpow_pos two_pos _)
  · cases hfinite
  · have hten : (0 : ℚ) < 10 ^ exponent := zpow_pos (by norm_num) exponent
    have hdigits : (digits : ℚ) < 10 ^ ((digits.log2 / 3 + 1 : Nat) : Int) := by
      rw [zpow_natCast]
      exact_mod_cast lt_ten_pow digits
    have hq : (digits : ℚ) * 10 ^ exponent < 10 ^ (exponent + (digits.log2 / 3 + 1 : Nat)) := by
      rw [zpow_add₀ (by norm_num), mul_comm ((10 : ℚ) ^ exponent)]
      exact mul_lt_mul_of_pos_right hdigits hten
    apply isNearest_zero
    rw [abs_signed, abs_of_nonneg (by positivity)]
    exact two_mul_lt_least hq hsmall
  · have hden : 0 < Nat.pow 10 (-exponent).toNat := Nat.pow_pos (by decide)
    rw [decimal_eq_div]
    exact isNearest_ofRatio negative hden hfinite

/-! ## Whole numbers -/

theorem signed_natAbs (i : Int) : signed (i < 0) ((i.natAbs : Nat) / (1 : Nat)) = i := by
  rw [Nat.cast_one, div_one, signed_natCast]
  congr 1
  split_ifs with h <;> simp at h <;> omega

/-- A whole number below `2^64`, of either sign, is rounded to the nearest number. -/
theorem isNearest_ofInt {i : Int} (h : i.natAbs < 0x10000000000000000) : (ofInt i).IsNearest i := by
  have hnearest := isNearest_ofRatio (decide (i < 0)) one_pos (isFinite_ofInt h)
  rwa [signed_natAbs] at hnearest

theorem natAbs_toInt_lt (i : Int64) : i.toInt.natAbs < 0x10000000000000000 := by
  have hlow := i.le_toInt
  have hhigh := i.toInt_lt
  omega

/-- A whole number that is the value of a number is rounded to that value. -/
theorem value?_ofInt_of_exists {x : Binary64} {i : Int} (h : i.natAbs < 0x10000000000000000)
    (hx : x.value? = some (i : ℚ)) : (ofInt i).value? = some (i : ℚ) :=
  (isNearest_ofInt h).value?_eq_of_exists hx

/-- A whole number of 53 bits is the value of a number. -/
theorem exists_value?_natCast (s : Bool) {n : Nat} (h : n ≤ 2 ^ 53) : ∃ x : Binary64, x.value? = some (signed s n) := by
  by_cases hn : n = 0
  · subst hn
    exact ⟨zero s, by rw [zero, value?, Nat.cast_zero, zero_mul]⟩
  by_cases htop : n = 2 ^ 53
  · subst htop
    refine ⟨.finite s (2 ^ 52) 1 (by decide), ?_⟩
    rw [value?, zpow_one]
    congr 2
    norm_num
  -- any other has 53 bits or fewer, and is shifted up to 53
  have hlog : n.log2 < 53 := (Nat.log2_lt hn).mpr (lt_of_le_of_ne h htop)
  have hdown : n.log2 - 52 = 0 := by omega
  obtain ⟨hlow, hhigh⟩ := scaled_bounds hn
  rw [hdown, Nat.shiftLeft_zero, mul_one] at hlow hhigh
  refine ⟨.finite s (n <<< (52 - n.log2)) ((n.log2 : Int) - 52) ⟨hhigh, by omega, by omega, .inl hlow⟩, ?_⟩
  have hcancel : (2 : ℚ) ^ ((52 - n.log2 : Nat) : Int) * 2 ^ ((n.log2 : Int) - 52) = 1 := by
    rw [← zpow_add₀ two_ne_zero, ← zpow_zero (2 : ℚ)]
    congr 1
    omega
  show some (signed s (((n <<< (52 - n.log2) : Nat) : ℚ) * 2 ^ ((n.log2 : Int) - 52))) = some (signed s n)
  rw [Nat.shiftLeft_eq, Nat.cast_mul, Nat.cast_pow, Nat.cast_ofNat, ← zpow_natCast, mul_assoc, hcancel, mul_one]

/-- A whole number of 53 bits is rounded to itself. -/
theorem value?_ofInt {i : Int} (h : i.natAbs ≤ 2 ^ 53) : (ofInt i).value? = some (i : ℚ) := by
  obtain ⟨x, hx⟩ := exists_value?_natCast (i < 0) h
  have hi := signed_natAbs i
  rw [Nat.cast_one, div_one] at hi
  rw [hi] at hx
  exact value?_ofInt_of_exists (by omega) hx

theorem abs_intCast (i : Int) : |(i : ℚ)| = (i.natAbs : Nat) := by
  rw [Nat.cast_natAbs, Int.cast_abs]

/-- What a whole number beyond `2 ^ 53` is rounded to is no smaller than that, as the power of two on the
same side is near enough. -/
theorem IsNearest.le_abs {x : Binary64} {v : ℚ} {i : Int} (h : x.IsNearest i) (hx : x.value? = some v)
    (hfar : 2 ^ 53 ≤ i.natAbs) : 2 ^ 53 ≤ |v| := by
  obtain ⟨w, hw, hmin⟩ := h
  obtain rfl : v = w := Option.some.inj (hx.symm.trans hw)
  obtain ⟨y, hy⟩ := exists_value?_natCast (i < 0) (le_refl (2 ^ 53))
  have hcompetitor : |signed (i < 0) ((2 ^ 53 : Nat) : ℚ) - i| = (i.natAbs : ℚ) - 2 ^ 53 := by
    have hint : |(if decide (i < 0) = true then -((2 ^ 53 : Nat) : Int) else ((2 ^ 53 : Nat) : Int)) - i| =
        i.natAbs - 2 ^ 53 := by
      rw [Int.abs_eq_natAbs]
      simp only [decide_eq_true_eq]
      split_ifs <;> omega
    rw [signed_natCast]
    exact_mod_cast hint
  have hdistance : |v - i| ≤ (i.natAbs : ℚ) - 2 ^ 53 := hcompetitor ▸ (hmin y _ hy).1
  have htriangle : |(i : ℚ)| - |v| ≤ |v - i| := by
    rw [abs_sub_comm]
    exact abs_sub_abs_le_abs_sub _ _
  rw [abs_intCast] at htriangle
  linarith

end RequestGuard.Binary64
