import RequestGuard.Proofs.Number.Integers
import RequestGuard.Proofs.Request.Equality
import RequestGuard.Schema.Coercion

/-!
# Integers among the numbers

What is accepted as an integer is accepted as a number, and the two results are the same value
(`integer_refines_number`). A text is read as an integer first. That reading is exact over all 64
bits, where the number that the text is read as may be rounded. A text with a fraction or an exponent
is an integer by way of the number, which then has the integer for its value, neither saturated nor
wrapped.
-/

namespace RequestGuard

open Text (trim)

theorem Int64.ofInt?_eq_some_iff {i : Int} {n : Int64} : Int64.ofInt? i = some n ↔ i = n.toInt := by
  have hlow := n.le_toInt
  have hhigh := n.toInt_lt
  rw [Int64.ofInt?]
  constructor
  · intro h
    split at h
    · rename_i hrange
      rw [← Option.some.inj h, Int64.toInt_ofInt_of_le hrange.1 hrange.2]
    · cases h
  · rintro rfl
    rw [if_pos ⟨hlow, hhigh⟩, Int64.ofInt_toInt]

/-- Whether the value is a text that, blanks at its ends aside, is the integer in decimal. -/
def FieldValue.Writes : FieldValue → Int64 → Prop
  | text s, n => Numeral.IsDecimal (trim s.toList) n.toInt
  | _, _ => False

namespace Coercion

/-! ## Numbers without a fraction -/

theorem wholeInteger?_eq_some_iff {x : Binary64} {n : Int64} :
    wholeInteger? x = some n ↔ x.value? = some (n.toInt : ℚ) := by
  rw [wholeInteger?, Option.bind_eq_some_iff, ← Binary64.whole?_eq_some_iff]
  constructor
  · rintro ⟨i, hi, hn⟩
    rw [← Int64.ofInt?_eq_some_iff.mp hn, hi]
  · intro h
    exact ⟨n.toInt, h, Int64.ofInt?_eq_some_iff.mpr rfl⟩

/-! ## Texts -/

/-- An integer in decimal is read as the finite number nearest to it. -/
theorem exists_finite?_of_isDecimal {s : String} {n : Int64} (h : Numeral.IsDecimal (trim s.toList) n.toInt) :
    ∃ x, finite? s = some x ∧ x.IsNearest n.toInt := by
  obtain ⟨x, hx, hnearest⟩ := Numeral.exists_binary64?_of_isDecimal h (Binary64.natAbs_toInt_lt n)
  have hfinite : x.isFinite = true := by
    obtain ⟨v, hv, -⟩ := hnearest
    exact Binary64.isFinite_iff.mpr ⟨v, hv⟩
  refine ⟨x, ?_, hnearest⟩
  rw [finite?, hx, Option.filter_some, if_pos hfinite]

/-- A text is an integer as it is written, or else as the number that it is read as. -/
theorem integerOfText?_eq_some_iff {s : String} {n : Int64} :
    integerOfText? s = some n ↔ Numeral.IsDecimal (trim s.toList) n.toInt ∨
      (¬∃ m : Int64, Numeral.IsDecimal (trim s.toList) m.toInt) ∧
        ∃ x, finite? s = some x ∧ x.value? = some (n.toInt : ℚ) := by
  have hrange (m : Int64) : -0x8000000000000000 ≤ m.toInt ∧ m.toInt < 0x8000000000000000 :=
    ⟨m.le_toInt, m.toInt_lt⟩
  have hwrites (m : Int64) : Numeral.int64? (trim s.toList) = some m.toInt ↔ Numeral.IsDecimal (trim s.toList) m.toInt := by
    rw [Numeral.int64?_eq_some_iff, and_iff_left (hrange m)]
  rw [integerOfText?]
  -- the number is read only where the text writes no integer
  cases hread : Numeral.int64? (trim s.toList) with
  | some i =>
    obtain ⟨hdecimal, hlow, hhigh⟩ := Numeral.int64?_eq_some_iff.mp hread
    have hi : (Int64.ofInt i).toInt = i := Int64.toInt_ofInt_of_le hlow hhigh
    have hwritten : ∃ m : Int64, Numeral.IsDecimal (trim s.toList) m.toInt := ⟨Int64.ofInt i, hi.symm ▸ hdecimal⟩
    rw [← hwrites, hread]
    simp only [hwritten, not_true_eq_false, false_and, or_false, Option.some.injEq]
    constructor
    · rintro rfl
      exact hi.symm
    · rintro rfl
      exact Int64.ofInt_toInt n
  | none =>
    have hunwritten : ¬∃ m : Int64, Numeral.IsDecimal (trim s.toList) m.toInt := by
      rintro ⟨m, hm⟩
      rw [← hwrites, hread] at hm
      cases hm
    simp only [hunwritten, not_exists.mp hunwritten n, not_false_eq_true, true_and, false_or, Option.bind_eq_some_iff,
      wholeInteger?_eq_some_iff]

/-! ## Values -/

/-- What is accepted as an integer, and as which: an integer, a text that writes one, and any other
value that is accepted as a number without a fraction. -/
theorem coerce?_integer_eq_some_iff {v a : FieldValue} :
    integer.coerce? v = some a ↔ ∃ n, a = .integer n ∧ (v = .integer n ∨ v.Writes n ∨
      (¬∃ m, v.Writes m) ∧ ∃ x, number.coerce? v = some (.number x) ∧ x.value? = some (n.toInt : ℚ)) := by
  constructor
  · intro h
    cases v with
    | integer i =>
      cases h
      exact ⟨i, rfl, .inl rfl⟩
    | number x =>
      obtain ⟨n, hn, rfl⟩ := Option.map_eq_some_iff.mp h
      have hvalue := wholeInteger?_eq_some_iff.mp hn
      have hfinite : x.isFinite = true := Binary64.isFinite_iff.mpr ⟨_, hvalue⟩
      exact ⟨n, rfl, .inr (.inr ⟨fun ⟨_, hm⟩ => hm, x, if_pos hfinite, hvalue⟩)⟩
    | text s =>
      obtain ⟨n, hn, rfl⟩ := Option.map_eq_some_iff.mp h
      refine ⟨n, rfl, .inr ?_⟩
      rcases integerOfText?_eq_some_iff.mp hn with hwritten | ⟨hunwritten, x, hx, hvalue⟩
      · exact .inl hwritten
      · exact .inr ⟨hunwritten, x, congrArg (Option.map FieldValue.number) hx, hvalue⟩
    | boolean _ | date _ | json _ => cases h
  · rintro ⟨n, rfl, rfl | hwritten | ⟨hunwritten, x, hx, hvalue⟩⟩
    · rfl
    · cases v with
      | text s => exact congrArg (Option.map FieldValue.integer) (integerOfText?_eq_some_iff.mpr (.inl hwritten))
      | integer _ | number _ | boolean _ | date _ | json _ => cases hwritten
    · cases v with
      | number y =>
        obtain ⟨-, hxy⟩ := Option.ite_none_right_eq_some.mp hx
        cases hxy
        exact congrArg (Option.map FieldValue.integer) (wholeInteger?_eq_some_iff.mpr hvalue)
      | text s =>
        obtain ⟨y, hy, hxy⟩ := Option.map_eq_some_iff.mp hx
        cases hxy
        exact congrArg (Option.map FieldValue.integer) (integerOfText?_eq_some_iff.mpr (.inr ⟨hunwritten, x, hy, hvalue⟩))
      | integer _ | boolean _ | date _ | json _ => cases hx

/-- A value that writes an integer is accepted as a number: as the one nearest to the integer. -/
theorem exists_coerce?_number_of_writes {v : FieldValue} {n : Int64} (h : v.Writes n) :
    ∃ x, number.coerce? v = some (.number x) ∧ x.IsNearest n.toInt := by
  cases v with
  | text s =>
    obtain ⟨x, hx, hnearest⟩ := exists_finite?_of_isDecimal h
    exact ⟨x, congrArg (Option.map FieldValue.number) hx, hnearest⟩
  | integer _ | number _ | boolean _ | date _ | json _ => cases h

/-- The result as an integer and the result as a number are the same value. -/
theorem same_of_coerce?_integer {v a : FieldValue} (h : integer.coerce? v = some a) :
    ∃ b, number.coerce? v = some b ∧ a.same b = true := by
  obtain ⟨n, rfl, rfl | hwritten | ⟨-, x, hx, hvalue⟩⟩ := coerce?_integer_eq_some_iff.mp h
  · exact ⟨.integer n, rfl, FieldValue.same_integer_iff.mpr (.inl rfl)⟩
  · obtain ⟨x, hx, hnearest⟩ := exists_coerce?_number_of_writes hwritten
    exact ⟨.number x, hx, FieldValue.same_integer_number_iff.mpr hnearest⟩
  · exact ⟨.number x, hx, FieldValue.same_of_value? hvalue⟩

/-- **The integers refine the numbers.** What is accepted as an integer is accepted as a number that is
the same value. Accepted as integers are integers, texts that write one, and what is accepted as a number
without a fraction within 64 bits. What is written is the result exactly; otherwise the number is. -/
theorem integer_refines_number (v : FieldValue) :
    (∀ a, integer.coerce? v = some a → ∃ b, number.coerce? v = some b ∧ a.same b = true ∧ b.same a = true) ∧
      ((integer.coerce? v).isSome = true ↔ (number.coerce? v).isSome = true ∧
        ((∃ n, v = .integer n) ∨ (∃ n, v.Writes n) ∨ ∃ (x : Binary64) (k : Int), number.coerce? v = some (.number x) ∧
          x.value? = some (k : ℚ) ∧ -2 ^ 63 ≤ k ∧ k < 2 ^ 63)) ∧
      (∀ n, v.Writes n → integer.coerce? v = some (.integer n) ∧
        ∃ x, number.coerce? v = some (.number x) ∧ x.IsNearest n.toInt) ∧
      ∀ a, integer.coerce? v = some a → (∀ n, v ≠ .integer n) → (∀ n, ¬v.Writes n) →
        ∃ (n : Int64) (x : Binary64), a = .integer n ∧ number.coerce? v = some (.number x) ∧
          x.value? = some (n.toInt : ℚ) := by
  refine ⟨?_, ?_, ?_, ?_⟩
  · intro a ha
    obtain ⟨b, hb, hsame⟩ := same_of_coerce?_integer ha
    exact ⟨b, hb, hsame, (FieldValue.same_comm b a).trans hsame⟩
  · rw [Option.isSome_iff_exists]
    constructor
    · rintro ⟨a, ha⟩
      obtain ⟨b, hb, -⟩ := same_of_coerce?_integer ha
      refine ⟨Option.isSome_of_mem hb, ?_⟩
      obtain ⟨n, rfl, rfl | hwritten | ⟨-, x, hx, hvalue⟩⟩ := coerce?_integer_eq_some_iff.mp ha
      · exact .inl ⟨n, rfl⟩
      · exact .inr (.inl ⟨n, hwritten⟩)
      · exact .inr (.inr ⟨x, n.toInt, hx, hvalue, n.le_toInt, n.toInt_lt⟩)
    · rintro ⟨-, ⟨n, rfl⟩ | ⟨n, hwritten⟩ | ⟨x, k, hx, hvalue, hlow, hhigh⟩⟩
      · exact ⟨.integer n, rfl⟩
      · exact ⟨.integer n, coerce?_integer_eq_some_iff.mpr ⟨n, rfl, .inr (.inl hwritten)⟩⟩
      · by_cases hwritten : ∃ m, v.Writes m
        · obtain ⟨m, hm⟩ := hwritten
          exact ⟨.integer m, coerce?_integer_eq_some_iff.mpr ⟨m, rfl, .inr (.inl hm)⟩⟩
        · have hk : (Int64.ofInt k).toInt = k := Int64.toInt_ofInt_of_le hlow hhigh
          refine ⟨.integer (Int64.ofInt k), coerce?_integer_eq_some_iff.mpr ⟨_, rfl, .inr (.inr ⟨hwritten, x, hx, ?_⟩)⟩⟩
          rw [hk, hvalue]
  · intro n hn
    exact ⟨coerce?_integer_eq_some_iff.mpr ⟨n, rfl, .inr (.inl hn)⟩, exists_coerce?_number_of_writes hn⟩
  · intro a ha hinteger hwrites
    obtain ⟨n, rfl, rfl | hwritten | ⟨-, x, hx, hvalue⟩⟩ := coerce?_integer_eq_some_iff.mp ha
    · exact absurd rfl (hinteger n)
    · exact absurd hwritten (hwrites n)
    · exact ⟨n, x, rfl, hx, hvalue⟩

/-- A text that writes the least integer that no number is, between blanks. -/
theorem integer_refines_number_odd :
    integer.coerce? (.text " +9007199254740993\n") = some (.integer 9007199254740993) ∧
      ∃ x, number.coerce? (.text " +9007199254740993\n") = some (.number x) ∧
        x.IsNearest ((9007199254740993 : Int64).toInt : ℚ) :=
  (integer_refines_number (.text " +9007199254740993\n")).2.2.1 9007199254740993
    ⟨"9007199254740993".toList, by decide, List.all_eq_true.mp (by decide), .inl ⟨.inr (by decide), by decide⟩⟩

end Coercion

end RequestGuard
