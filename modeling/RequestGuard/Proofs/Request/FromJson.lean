import RequestGuard.Proofs.Number.Rounding
import RequestGuard.Request.FieldValue

/-!
# Values that JSON gives

A member of a JSON object gives its field a text, a truth value, an integer or a finite number, and
what is neither of these stays JSON. `FromJson` says which values these are, and no others come out
(`fromJson_iff_exists_ofDocument`). Such a value is written as JSON and comes back as it was, in its
own kind (`ofDocument_toDocument`). The other way round, what a member of an object is written as once
it has been a field's value is the member itself, but for integers that are rounded (`Json.Rewritten`).
-/

namespace RequestGuard

/-- Whether a field holds the value as JSON: null, an array or an object. -/
def Json.staysJson : Json → Bool
  | null => true
  | array _ => true
  | object _ => true
  | _ => false

namespace FieldValue

/-- The value is one that JSON can give a field. -/
def FromJson : FieldValue → Prop
  | text _ => True
  | number x => x.isFinite = true
  | integer _ => True
  | boolean _ => True
  | date _ => False
  | json d => d.val.staysJson = true

theorem namesUnique_toJson (v : FieldValue) : v.toJson.NamesUnique := by
  cases v with
  | number x =>
    simp only [toJson]
    cases Json.Number.ofBinary64? x <;> trivial
  | integer i =>
    simp only [toJson]
    cases Json.Number.ofInt? i.toInt <;> trivial
  | json d => exact d.property
  | text _ | boolean _ | date _ => trivial

/-- The value as a JSON document. -/
def toDocument (v : FieldValue) : Document := ⟨v.toJson, v.namesUnique_toJson⟩

/-! ## Integers -/

theorem toJson_integer (i : Int64) :
    ∃ fits, (integer i).toJson = .number (.integer i.toInt fits) := by
  have hlow : -0x8000000000000000 ≤ i.toInt := Int64.le_toInt i
  have hhigh : i.toInt < 0x8000000000000000 := Int64.toInt_lt i
  have fits : -0x8000000000000000 ≤ i.toInt ∧ i.toInt < 0x10000000000000000 := by omega
  refine ⟨fits, ?_⟩
  simp only [toJson, Json.Number.ofInt?, dif_pos fits]

theorem ofInt?_toInt (i : Int64) : Int64.ofInt? i.toInt = some i := by
  have hrange : -0x8000000000000000 ≤ i.toInt ∧ i.toInt < 0x8000000000000000 :=
    ⟨Int64.le_toInt i, Int64.toInt_lt i⟩
  rw [Int64.ofInt?, if_pos hrange, Int64.ofInt_toInt]

/-! ## There and back -/

theorem toJson_number {x : Binary64} (h : x.isFinite = true) :
    (number x).toJson = .number (.float x h) := by
  simp only [toJson, Json.Number.ofBinary64?, dif_pos h]

/-- A value that JSON can give comes back from the JSON that it is written as. -/
theorem ofDocument_toDocument {v : FieldValue} (h : v.FromJson) : ofDocument v.toDocument = v := by
  unfold toDocument
  cases v with
  | text s => rfl
  | boolean b => rfl
  | date d => exact h.elim
  | number x =>
    simp only [toJson_number h]
    rfl
  | integer i =>
    obtain ⟨fits, hi⟩ := toJson_integer i
    simp only [hi, ofDocument, ofInt?_toInt]
  | json d =>
    obtain ⟨v, hv⟩ := d
    cases v with
    | null | array _ | object _ => rfl
    | boolean _ | number _ | string _ => exact absurd h Bool.false_ne_true

/-- What JSON gives a field are these values and no others. An integer beyond the signed ones is
rounded, and stays finite. -/
theorem fromJson_ofDocument (d : Document) : (ofDocument d).FromJson := by
  obtain ⟨v, hv⟩ := d
  cases v with
  | null | array _ | object _ => rfl
  | boolean _ | string _ => trivial
  | number n =>
    cases n with
    | float x finite => exact finite
    | integer i fits =>
      simp only [ofDocument]
      cases Int64.ofInt? i with
      | some i => trivial
      | none =>
        have hrange : i.natAbs < 0x10000000000000000 := by omega
        exact Binary64.isFinite_ofInt hrange

theorem fromJson_iff_exists_ofDocument {v : FieldValue} : v.FromJson ↔ ∃ d, ofDocument d = v := by
  constructor
  · intro h
    exact ⟨v.toDocument, ofDocument_toDocument h⟩
  · rintro ⟨d, rfl⟩
    exact fromJson_ofDocument d

end FieldValue

/-! ## Written again -/

/-- What a member comes to that is read into a field and written again. It stays what it is, but an
integer beyond the signed ones of 64 bits becomes the number that it is rounded to. -/
inductive Json.Rewritten : Json → Json → Prop where
  | kept {v : Json} : (∀ i fits, v = .number (.integer i fits) → i < 0x8000000000000000) →
      Rewritten v v
  | rounded {i : Int} {fits : -0x8000000000000000 ≤ i ∧ i < 0x10000000000000000}
      {finite : (Binary64.ofInt i).isFinite = true} : 0x8000000000000000 ≤ i →
      Rewritten (.number (.integer i fits)) (.number (.float (.ofInt i) finite))

theorem Json.Rewritten.of_ne {v : Json} (h : ∀ i fits, v ≠ .number (.integer i fits)) :
    Rewritten v v := by
  apply kept
  intro i fits hv
  exact absurd hv (h i fits)

theorem FieldValue.rewritten_ofDocument (d : Document) :
    Json.Rewritten d.val (ofDocument d).toJson := by
  obtain ⟨v, hv⟩ := d
  cases v with
  | null | boolean _ | string _ | array _ | object _ => exact .of_ne (fun _ _ h => by cases h)
  | number n =>
    cases n with
    | float x finite =>
      have hjson : (ofDocument ⟨.number (.float x finite), hv⟩).toJson = .number (.float x finite) :=
        toJson_number finite
      rw [hjson]
      exact .of_ne (fun _ _ h => by cases h)
    | integer i fits =>
      rcases lt_or_ge i 0x8000000000000000 with hlow | hhigh
      · have hgiven : ofDocument ⟨.number (.integer i fits), hv⟩ = .integer (Int64.ofInt i) := by
          rw [ofDocument, Int64.ofInt?, if_pos ⟨fits.1, hlow⟩]
        have hback : (Int64.ofInt i).toInt = i := Int64.toInt_ofInt_of_le fits.1 hlow
        obtain ⟨fits', hjson⟩ := toJson_integer (Int64.ofInt i)
        simp only [hgiven, hjson, hback]
        apply Json.Rewritten.kept
        intro j _ hj
        cases hj
        exact hlow
      · have hgiven : ofDocument ⟨.number (.integer i fits), hv⟩ = .number (.ofInt i) := by
          rw [ofDocument, Int64.ofInt?, if_neg (by omega)]
        have hrange : i.natAbs < 0x10000000000000000 := by omega
        rw [hgiven, toJson_number (Binary64.isFinite_ofInt hrange)]
        exact .rounded hhigh

end RequestGuard
