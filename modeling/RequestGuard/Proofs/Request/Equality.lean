import RequestGuard.Proofs.Json.Equality
import RequestGuard.Proofs.Number.Nearest
import RequestGuard.Request.FieldValue

/-!
# Equality of field values

`FieldValue.same` is reflexive but for the number that is none, and it is symmetric. It compares an
integer with a number by rounding the integer, so beyond `2 ^ 53` an integer is the same as a number
whose value it is not, and two integers may be the same as one number (`same_laws`). That is all that
keeps it from being transitive.
-/

namespace RequestGuard

open Binary64 (ofInt)

namespace FieldValue

/-! ## What a value is the same as -/

variable {v : FieldValue}

theorem same_text_iff {s : String} : (text s).same v = true ↔ v = text s := by
  cases v with
  | text t =>
    simp only [same, beq_iff_eq, text.injEq]
    exact eq_comm
  | number _ | integer _ | boolean _ | date _ | json _ => simp [same, number?]

theorem same_boolean_iff {b : Bool} : (boolean b).same v = true ↔ v = boolean b := by
  cases v with
  | boolean c =>
    simp only [same, beq_iff_eq, boolean.injEq]
    exact eq_comm
  | text _ | number _ | integer _ | date _ | json _ => simp [same, number?]

theorem same_date_iff {d : Instant} : (date d).same v = true ↔ v = date d := by
  cases v with
  | date e =>
    simp only [same, beq_iff_eq, date.injEq]
    exact eq_comm
  | text _ | number _ | integer _ | boolean _ | json _ => simp [same, number?]

theorem same_json_iff {d : Document} : (json d).same v = true ↔ ∃ e, v = json e ∧ d.val.same e.val = true := by
  cases v with
  | json e => simp [same]
  | text _ | number _ | integer _ | boolean _ | date _ => simp [same, number?]

theorem same_integer_iff {i : Int64} :
    (integer i).same v = true ↔ v = integer i ∨ ∃ x, v = number x ∧ (ofInt i.toInt).numEq x = true := by
  cases v with
  | integer j =>
    simp only [same, beq_iff_eq, integer.injEq, reduceCtorEq, false_and, exists_false, or_false]
    exact eq_comm
  | number x => simp [same, number?]
  | text _ | boolean _ | date _ | json _ => simp [same, number?]

theorem same_number_iff {x : Binary64} :
    (number x).same v = true ↔
      (∃ i, v = integer i ∧ x.numEq (ofInt i.toInt) = true) ∨ ∃ y, v = number y ∧ x.numEq y = true := by
  cases v with
  | integer j => simp [same, number?]
  | number x => simp [same, number?]
  | text _ | boolean _ | date _ | json _ => simp [same, number?]

/-! ## Integers and numbers -/

/-- An integer that is rounded is equal to the numbers that are nearest to it. -/
theorem numEq_ofInt_iff {i : Int64} {x : Binary64} :
    (ofInt i.toInt).numEq x = true ↔ x.IsNearest i.toInt := by
  have hrounded := Binary64.isNearest_ofInt (Binary64.natAbs_toInt_lt i)
  rw [Binary64.numEq_iff]
  constructor
  · rintro (⟨v, hv, hx⟩ | ⟨s, hs, -⟩)
    · exact hrounded.of_value?_eq (hx.trans hv.symm)
    · obtain ⟨v, hv, -⟩ := hrounded
      rw [hs] at hv
      cases hv
  · intro hx
    obtain ⟨v, hv, -⟩ := id hx
    exact .inl ⟨v, (hrounded.value?_eq hx).trans hv, hv⟩

theorem same_integer_number_iff {i : Int64} {x : Binary64} :
    (integer i).same (number x) = true ↔ x.IsNearest i.toInt := by
  rw [same_integer_iff, ← numEq_ofInt_iff]
  simp

/-- An integer is the same as the numbers of its value. -/
theorem same_of_value? {i : Int64} {x : Binary64} (h : x.value? = some (i.toInt : ℚ)) :
    (integer i).same (number x) = true := by
  have hrounded := Binary64.isNearest_ofInt (Binary64.natAbs_toInt_lt i)
  rw [same_integer_number_iff]
  exact hrounded.of_value?_eq (h.trans (hrounded.value?_eq_of_exists h).symm)

/-- An integer is the same as no other number, unless it is the value of none and this one is nearest
to it. -/
theorem same_iff_value?_iff {i : Int64} {x : Binary64} :
    ((integer i).same (number x) = true ↔ x.value? = some (i.toInt : ℚ)) ↔
      (∃ y : Binary64, y.value? = some (i.toInt : ℚ)) ∨ ¬x.IsNearest i.toInt := by
  constructor
  · intro hexact
    by_cases hx : x.IsNearest i.toInt
    · exact .inl ⟨x, hexact.mp (same_integer_number_iff.mpr hx)⟩
    · exact .inr hx
  · intro hcase
    refine ⟨fun hsame => ?_, same_of_value?⟩
    have hx := same_integer_number_iff.mp hsame
    rcases hcase with ⟨y, hy⟩ | hfar
    · exact hx.value?_eq_of_exists hy
    · exact absurd hx hfar

/-! ## The laws -/

theorem same_self_iff : v.same v = true ↔ v ≠ number .nan := by
  cases v with
  | text s => simp [same_text_iff]
  | boolean b => simp [same_boolean_iff]
  | date d => simp [same_date_iff]
  | integer i => simp [same_integer_iff]
  | number x => simp [same_number_iff, Binary64.numEq_self_iff]
  | json d => simp [same_json_iff, Json.same_refl d.property]

theorem same_comm (u v : FieldValue) : u.same v = v.same u := by
  have hsymm {u v : FieldValue} (h : u.same v = true) : v.same u = true := by
    cases u with
    | text s => exact same_text_iff.mp h ▸ same_text_iff.mpr rfl
    | boolean b => exact same_boolean_iff.mp h ▸ same_boolean_iff.mpr rfl
    | date d => exact same_date_iff.mp h ▸ same_date_iff.mpr rfl
    | json d =>
      obtain ⟨e, rfl, hde⟩ := same_json_iff.mp h
      exact same_json_iff.mpr ⟨d, rfl, Json.same_symm d.property e.property hde⟩
    | integer i =>
      rcases same_integer_iff.mp h with rfl | ⟨x, rfl, hx⟩
      · exact h
      · exact same_number_iff.mpr (.inl ⟨i, rfl, (Binary64.numEq_comm _ _).trans hx⟩)
    | number x =>
      rcases same_number_iff.mp h with ⟨i, rfl, hi⟩ | ⟨y, rfl, hy⟩
      · exact same_integer_iff.mpr (.inr ⟨x, rfl, (Binary64.numEq_comm _ _).trans hi⟩)
      · exact same_number_iff.mpr (.inr ⟨x, rfl, (Binary64.numEq_comm _ _).trans hy⟩)
  exact Bool.eq_iff_iff.mpr ⟨hsymm, hsymm⟩

/-- Where a value is the same as two others, those are the same, two different integers aside that one
number is the same as. -/
theorem same_trans {u v w : FieldValue} (huv : u.same v = true) (hvw : v.same w = true) :
    u.same w = true ∨ ∃ i x j, u = integer i ∧ v = number x ∧ w = integer j ∧ i ≠ j := by
  cases u with
  | text s =>
    obtain rfl := same_text_iff.mp huv
    exact .inl hvw
  | boolean b =>
    obtain rfl := same_boolean_iff.mp huv
    exact .inl hvw
  | date d =>
    obtain rfl := same_date_iff.mp huv
    exact .inl hvw
  | json d =>
    obtain ⟨e, rfl, hde⟩ := same_json_iff.mp huv
    obtain ⟨f, rfl, hef⟩ := same_json_iff.mp hvw
    exact .inl (same_json_iff.mpr ⟨f, rfl, Json.same_trans hde hef⟩)
  | integer i =>
    rcases same_integer_iff.mp huv with rfl | ⟨x, rfl, hx⟩
    · exact .inl hvw
    · rcases same_number_iff.mp hvw with ⟨j, rfl, hj⟩ | ⟨y, rfl, hy⟩
      · -- the number lies between the two, which need not be one
        by_cases hij : i = j
        · exact .inl (same_integer_iff.mpr (.inl (hij ▸ rfl)))
        · exact .inr ⟨i, x, j, rfl, rfl, rfl, hij⟩
      · exact .inl (same_integer_iff.mpr (.inr ⟨y, rfl, Binary64.numEq_trans hx hy⟩))
  | number x =>
    left
    rcases same_number_iff.mp huv with ⟨i, rfl, hi⟩ | ⟨y, rfl, hy⟩
    · rcases same_integer_iff.mp hvw with rfl | ⟨z, rfl, hz⟩
      · exact huv
      · exact same_number_iff.mpr (.inr ⟨z, rfl, Binary64.numEq_trans hi hz⟩)
    · rcases same_number_iff.mp hvw with ⟨j, rfl, hj⟩ | ⟨z, rfl, hz⟩
      · exact same_number_iff.mpr (.inl ⟨j, rfl, Binary64.numEq_trans hy hj⟩)
      · exact same_number_iff.mpr (.inr ⟨z, rfl, Binary64.numEq_trans hy hz⟩)

/-- **The laws of equality.** Every value but the number that is none is the same as itself, and the
answer is one in either order. Transitivity fails for two different integers with a number between them and
for nothing else. An integer is the same as the numbers that are nearest to it; those are the numbers of its
value unless it is the value of none. -/
theorem same_laws (u v w : FieldValue) (i : Int64) (x : Binary64) :
    (u.same u = true ↔ u ≠ number .nan) ∧ u.same v = v.same u ∧
      (u.same v = true → v.same w = true →
        (u.same w = true ↔ ¬∃ i x j, u = integer i ∧ v = number x ∧ w = integer j ∧ i ≠ j)) ∧
      ((integer i).same (number x) = true ↔ x.IsNearest i.toInt) ∧
      (((integer i).same (number x) = true ↔ x.value? = some (i.toInt : ℚ)) ↔
        (∃ y : Binary64, y.value? = some (i.toInt : ℚ)) ∨ ¬x.IsNearest i.toInt) := by
  refine ⟨same_self_iff, same_comm u v, fun huv hvw => ?_, same_integer_number_iff, same_iff_value?_iff⟩
  constructor
  · rintro huw ⟨i, x, j, rfl, -, rfl, hij⟩
    apply hij
    rcases same_integer_iff.mp huw with hw | ⟨y, hy, -⟩
    · exact (integer.inj hw).symm
    · cases hy
  · intro hplain
    exact (same_trans huv hvw).resolve_right hplain

/-- Two integers next to each other are the same as one number, whose value the second is. -/
theorem same_not_transitive :
    (integer 9007199254740993).same (number (.ofInt 9007199254740992)) = true ∧
      (number (.ofInt 9007199254740992)).same (integer 9007199254740992) = true ∧
      (integer 9007199254740993).same (integer 9007199254740992) = false ∧
      (ofInt 9007199254740992).value? = some (9007199254740992 : ℚ) := by
  refine ⟨by decide, by decide, by decide, ?_⟩
  have hexact : (ofInt 9007199254740992).value? = some ((9007199254740992 : Int) : ℚ) :=
    Binary64.value?_ofInt (by decide)
  exact_mod_cast hexact

end FieldValue

end RequestGuard
