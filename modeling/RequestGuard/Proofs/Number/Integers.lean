import RequestGuard.Number.Numeral
import RequestGuard.Proofs.Number.Nearest

/-!
# Integers in decimal

A text is an integer in decimal when it is one or more digits behind a sign that may be missing
(`IsDecimal`). Both readers of numerals take such a text: the one of integers for the integer, if it
is in range (`int64?_eq_some_iff`), and the one of floating-point numbers for the number nearest to it
(`exists_binary64?_of_isDecimal`).
-/

namespace RequestGuard.Numeral

/-! ## The texts -/

/-- Whether a text is the integer in decimal: digits, behind a sign or not. -/
def IsDecimal (cs : List Char) (i : Int) : Prop :=
  ∃ ds : List Char, ds ≠ [] ∧ (∀ c ∈ ds, c.isDigit = true) ∧
    ((cs = ds ∨ cs = '+' :: ds) ∧ i = Nat.ofDigitChars 10 ds 0 ∨ cs = '-' :: ds ∧ i = -Nat.ofDigitChars 10 ds 0)

/-- The digits are what stands behind the sign. -/
theorem isDecimal_iff {cs ds : List Char} {s : Bool} {i : Int} (hs : splitSign cs = (s, ds)) :
    IsDecimal cs i ↔ ds ≠ [] ∧ (∀ c ∈ ds, c.isDigit = true) ∧
      i = if s then -(Nat.ofDigitChars 10 ds 0 : Int) else Nat.ofDigitChars 10 ds 0 := by
  constructor
  · rintro ⟨es, hne, hes, ⟨rfl | rfl, hi⟩ | ⟨rfl, hi⟩⟩
    · obtain ⟨c, rest, rfl⟩ := List.exists_cons_of_ne_nil hne
      rw [splitSign_cons (ne_sign_of_isDigit (hes c List.mem_cons_self))] at hs
      cases hs
      exact ⟨hne, hes, hi⟩
    · cases hs
      exact ⟨hne, hes, hi⟩
    · cases hs
      exact ⟨hne, hes, hi⟩
  · rintro ⟨hne, hds, hi⟩
    refine ⟨ds, hne, hds, ?_⟩
    unfold splitSign at hs
    split at hs <;> cases hs
    · exact .inl ⟨.inr rfl, hi⟩
    · exact .inr ⟨rfl, hi⟩
    · exact .inl ⟨.inl rfl, hi⟩

/-! ## As integers -/

theorem digits?_eq_some_iff {cs : List Char} {n : Nat} :
    digits? cs = some n ↔ cs ≠ [] ∧ (∀ c ∈ cs, c.isDigit = true) ∧ n = Nat.ofDigitChars 10 cs 0 := by
  rw [digits?, ofRun_eq_ofDigitChars]
  cases cs with
  | nil => simp
  | cons c cs => simp [and_assoc, eq_comm (a := n)]

/-- An integer is read from its texts in decimal, if it is within the bounds, and from no other text. -/
theorem int?_eq_some_iff {least most i : Int} {cs : List Char} :
    int? least most cs = some i ↔ IsDecimal cs i ∧ least ≤ i ∧ i ≤ most := by
  rcases hs : splitSign cs with ⟨s, ds⟩
  simp only [isDecimal_iff hs, int?, hs]
  cases hn : digits? ds with
  | none =>
    simp only [reduceCtorEq, false_iff]
    rintro ⟨⟨hne, hds, -⟩, -⟩
    have hsome : digits? ds = some (Nat.ofDigitChars 10 ds 0) := digits?_eq_some_iff.mpr ⟨hne, hds, rfl⟩
    rw [hn] at hsome
    cases hsome
  | some n =>
    obtain ⟨hne, hds, rfl⟩ := digits?_eq_some_iff.mp hn
    simp only [Option.ite_none_right_eq_some, Option.some.injEq]
    constructor
    · rintro ⟨hrange, rfl⟩
      exact ⟨⟨hne, hds, rfl⟩, hrange⟩
    · rintro ⟨⟨-, -, rfl⟩, hrange⟩
      exact ⟨hrange, rfl⟩

theorem int64?_eq_some_iff {i : Int} {cs : List Char} :
    int64? cs = some i ↔ IsDecimal cs i ∧ -0x8000000000000000 ≤ i ∧ i < 0x8000000000000000 := by
  rw [int64?, int?_eq_some_iff]
  have hmost : i ≤ 0x7fffffffffffffff ↔ i < 0x8000000000000000 := by omega
  rw [hmost]

/-! ## As floating-point numbers -/

/-- Digits alone are a numeral without fraction and exponent. -/
theorem decimal?_of_digits (negative : Bool) {ds : List Char} (hne : ds ≠ []) (hds : ∀ c ∈ ds, c.isDigit = true) :
    decimal? negative ds = some (Binary64.ofRatio negative (Nat.ofDigitChars 10 ds 0) 1) := by
  have hwhole : ds.takeWhile Char.isDigit = ds := by
    rw [← List.append_nil ds, List.takeWhile_append_of_pos hds, List.takeWhile_nil, List.append_nil]
  have hrest : ds.dropWhile Char.isDigit = [] := by
    rw [← List.append_nil ds, List.dropWhile_append_of_pos hds, List.dropWhile_nil]
  have hempty : ds.isEmpty = false := by simp [hne]
  simp only [decimal?, hwhole, hrest, List.append_nil, hempty, Bool.false_eq_true, if_false, exponent?, Option.map_some,
    ofRun_eq_ofDigitChars, List.length_nil]
  congr 1
  generalize Nat.ofDigitChars 10 ds 0 = n
  by_cases hn : n = 0
  · subst hn
    rfl
  · have hup : ¬(400 : Int) < 0 - (0 : Nat) := by decide
    have hdown : ¬(0 : Int) - (0 : Nat) + (n.log2 / 3 + 1 : Nat) < -400 := by omega
    rw [Binary64.ofDecimal, if_neg hn, if_neg hup, if_neg hdown]
    show Binary64.ofRatio negative (n * 1) 1 = Binary64.ofRatio negative n 1
    rw [Nat.mul_one]

/-- An integer in decimal is read as the number nearest to it. -/
theorem exists_binary64?_of_isDecimal {cs : List Char} {i : Int} (h : IsDecimal cs i)
    (hsize : i.natAbs < 0x10000000000000000) : ∃ x, binary64? cs = some x ∧ x.IsNearest i := by
  rcases hs : splitSign cs with ⟨s, ds⟩
  obtain ⟨hne, hds, hi⟩ := (isDecimal_iff hs).mp h
  have hword : word? s ds = none := by
    obtain ⟨c, rest, rfl⟩ := List.exists_cons_of_ne_nil hne
    exact word?_of_isDigit (hds c List.mem_cons_self) s rest
  refine ⟨Binary64.ofRatio s (Nat.ofDigitChars 10 ds 0) 1, ?_, ?_⟩
  · simp only [binary64?, hs, hword, Option.none_or, decimal?_of_digits s hne hds]
  · have hfinite : (Binary64.ofRatio s (Nat.ofDigitChars 10 ds 0) 1).isFinite = true :=
      Binary64.isFinite_ofRatio_one s (by split_ifs at hi <;> omega)
    have hnearest := Binary64.isNearest_ofRatio _ one_pos hfinite
    rwa [Nat.cast_one, div_one, Binary64.signed_natCast, ← hi] at hnearest

end RequestGuard.Numeral
