import RequestGuard.Proofs.Schema.Fate
import RequestGuard.Proofs.Schema.Forgiveness

/-!
# More fields

Data lies within other data when the other has all its fields, with the same values. A schema
without transforms that is satisfied by data is satisfied by all data around it, and does the same
to the fields that both have.

Two facts carry this. Visits keep one run's data within the other's (`within_effect`), and on data
within other data no visit ends better than on the other (`milder_remark?`). Groups do the rest,
since forgiveness is monotone.
-/

namespace RequestGuard

/-- Every field of the first data is a field of the second, with the same value. -/
def RequestData.Within (d e : RequestData) : Prop :=
  ∀ s n v, d.get? s n = some v → e.get? s n = some v

theorem RequestData.within_insert {d : RequestData} {s : Source} {name : String}
    (h : d.get? s name = none) (v : FieldValue) : d.Within (d.insert s name v) := by
  intro t n w hw
  have hother : ¬ (t = s ∧ n = name) := by
    rintro ⟨rfl, rfl⟩
    rw [h] at hw
    cases hw
  rw [RequestData.get?_insert, if_neg hother, hw]

namespace Schema

/-- One visit on both sides keeps the one data within the other. -/
theorem within_effect {v : Visit} (h : v.demand.hasTransform = false) {d e : RequestData}
    (hde : d.Within e) : (v.effect d).Within (v.effect e) := by
  intro s n w hw
  rw [get?_effect h] at hw ⊢
  by_cases hsn : s = v.source ∧ n = v.name
  · -- What is left of the field was there before, so the other data has it with that value too.
    rw [if_pos hsn] at hw ⊢
    obtain ⟨given, hgiven, hresult⟩ := Option.bind_eq_some_iff.mp hw
    rw [hde s n given hgiven, Option.bind_some, hresult]
  · rw [if_neg hsn] at hw ⊢
    exact hde s n w hw

theorem milder_remark? {v : Visit} (h : v.demand.hasTransform = false) (brief : Bool)
    {d e : RequestData} (hde : d.Within e) : Milder (v.remark? brief d) (v.remark? brief e) := by
  intro hd
  rw [remark?_eq_none_iff h] at hd ⊢
  obtain ⟨w, hw⟩ := Option.isSome_iff_exists.mp hd
  obtain ⟨given, hgiven, hresult⟩ := Option.bind_eq_some_iff.mp hw
  rw [hde v.source v.name given hgiven, Option.bind_some, hresult, Option.isSome_some]

/-- Visit by visit, the data around ends no worse than the data within it. -/
theorem milder_outcomes {vs : List Visit} (h : ∀ v ∈ vs, v.demand.hasTransform = false)
    (brief : Bool) {d e : RequestData} (hde : d.Within e) :
    List.Forall₂ Milder (outcomes brief vs d) (outcomes brief vs e) := by
  induction vs generalizing d e with
  | nil => exact .nil
  | cons v vs ih =>
    obtain ⟨hv, hvs⟩ := List.forall_mem_cons.mp h
    exact .cons (milder_remark? hv brief hde) (ih hvs (within_effect hv hde))

/-- **More fields never turn acceptance into rejection.** Where a schema without transforms has
nothing to report about data, it has nothing to report about data around it; and in any case the two
runs leave the same in every field that the first data had, also where that is nothing. -/
theorem run_silent_of_within {nodes : List Node} (hfree : hasTransform nodes = false)
    (scope : Scope) {d e : RequestData} (hde : d.Within e) :
    ((run nodes scope d).2 = [] → (run nodes scope e).2 = []) ∧
      ∀ s n, d.contains s n = true →
        (run nodes scope e).1.get? s n = (run nodes scope d).1.get? s n := by
  refine ⟨?_, ?_⟩
  · have hvs := not_hasTransform_of_mem_visits hfree scope.source false
    exact run_snd_eq_nil_of_milder (milder_outcomes hvs scope.brief hde)
  · intro s n hn
    rw [RequestData.contains_eq_isSome] at hn
    obtain ⟨given, hgiven⟩ := Option.isSome_iff_exists.mp hn
    -- The field has one value on both sides, and so it has one fate.
    rw [get?_run hfree, get?_run hfree, hgiven, hde s n given hgiven]

/-- A number under a group in which one node is enough, in a query to which another field is
added. -/
theorem run_silent_of_within_number :
    let nodes : List Node :=
      [.combined .any [.coerced .integer ["n", "m"], .field "k"],
        .oneOf "n" [.literal (.integer 10)]]
    let scope : Scope := ⟨.query, true, false⟩
    let d := (RequestData.empty.insert .query "n" (.text "10")).insert .query "k" (.boolean true)
    let e := d.insert .query "m" (.text "no")
    hasTransform nodes = false ∧ d.Within e ∧ (run nodes scope d).2 = [] ∧
      ((run nodes scope d).2 = [] → (run nodes scope e).2 = []) ∧
      ∀ s n, d.contains s n = true →
        (run nodes scope e).1.get? s n = (run nodes scope d).1.get? s n := by
  intro nodes scope d e
  have hde : d.Within e := RequestData.within_insert rfl _
  exact ⟨rfl, hde, rfl, run_silent_of_within rfl scope hde⟩

end Schema

end RequestGuard
