import RequestGuard.Proofs.Schema.Visit

/-!
# Footprints

What visits write. A visit may write one field, its own, and only where it brings the field into a
kind or restricts it; `targets` lists these fields, once for each visit that may write them. Visits
leave all other fields alone (`get?_perform_of_not_mem_targets`), and none ever makes a field that
was not there (`contains_of_contains_effect`). Both hold whatever the transforms do.
-/

namespace RequestGuard.Schema

/-! ## Targets -/

/-- The field that a visit is to. -/
def Visit.target (v : Visit) : Source × String := (v.source, v.name)

/-- The fields that visits may write, once for each visit that may. -/
def targets (vs : List Visit) : List (Source × String) := (vs.filter Visit.writes).map Visit.target

theorem targets_cons (v : Visit) (vs : List Visit) :
    targets (v :: vs) = if v.writes then v.target :: targets vs else targets vs := by
  unfold targets
  cases hv : v.writes with
  | true => rw [List.filter_cons_of_pos hv, List.map_cons, if_pos rfl]
  | false =>
    rw [List.filter_cons_of_neg (by rw [hv]; exact Bool.false_ne_true), if_neg Bool.false_ne_true]

/-- Where each field is written by one visit at most, so it is behind the first visit. -/
theorem nodup_targets_of_cons {v : Visit} {vs : List Visit} (h : (targets (v :: vs)).Nodup) :
    (targets vs).Nodup := by
  rw [targets_cons] at h
  split at h
  · exact h.of_cons
  · exact h

/-- And none behind it writes the field that it writes. -/
theorem target_not_mem_targets {v : Visit} {vs : List Visit} (h : (targets (v :: vs)).Nodup)
    (hv : v.writes = true) : v.target ∉ targets vs := by
  rw [targets_cons, if_pos hv] at h
  exact (List.nodup_cons.mp h).1

theorem exists_of_mem_targets {vs : List Visit} {t : Source × String} (h : t ∈ targets vs) :
    ∃ v ∈ vs, v.writes = true ∧ v.target = t := by
  obtain ⟨v, hv, ht⟩ := List.mem_map.mp h
  obtain ⟨hmem, hw⟩ := List.mem_filter.mp hv
  exact ⟨v, hmem, hw, ht⟩

/-! ## Fields left alone -/

section

variable {s t : Source} {n name : String}

theorem get?_insert_of_ne (h : (s, name) ≠ (t, n)) (d : RequestData) (v : FieldValue) :
    (d.insert s name v).get? t n = d.get? t n := by
  rw [RequestData.get?_insert, if_neg]
  rintro ⟨rfl, rfl⟩
  exact h rfl

theorem get?_erase_of_ne (h : (s, name) ≠ (t, n)) (d : RequestData) :
    (d.erase s name).get? t n = d.get? t n := by
  rw [RequestData.get?_erase, if_neg]
  rintro ⟨rfl, rfl⟩
  exact h rfl

theorem get?_coerceField_of_ne (h : (s, name) ≠ (t, n)) (c : Coercion) (d : RequestData) :
    (coerceField c s name d).1.get? t n = d.get? t n := by
  rw [coerceField]
  cases (d.get? s name).bind c.coerce? with
  | none => exact get?_erase_of_ne h d
  | some v => exact get?_insert_of_ne h d v

theorem get?_restrictField_of_ne (h : (s, name) ≠ (t, n)) (as : List Alternative)
    (d : RequestData) : (restrictField name as s d).1.get? t n = d.get? t n := by
  rw [restrictField]
  cases d.get? s name with
  | none => rfl
  | some given =>
    simp only
    cases firstMatch? given d as with
    | none => exact get?_erase_of_ne h d
    | some m =>
      cases m with
      | same => rfl
      | made v => exact get?_insert_of_ne h d v

/-- A visit leaves every field alone but its own, whatever its transforms see. -/
theorem get?_effect_of_ne {v : Visit} (h : v.target ≠ (t, n)) (d : RequestData) :
    (v.effect d).get? t n = d.get? t n := by
  obtain ⟨s, name, demand⟩ := v
  cases demand with
  | given forced => rfl
  | ofKind c => exact get?_coerceField_of_ne h c d
  | among as => exact get?_restrictField_of_ne h as d

end

/-- Visits leave every field alone that none of them may write. -/
theorem get?_perform_of_not_mem_targets {vs : List Visit} {s : Source} {n : String}
    (h : (s, n) ∉ targets vs) (d : RequestData) : (perform vs d).get? s n = d.get? s n := by
  induction vs generalizing d with
  | nil => rfl
  | cons v vs ih =>
    rw [targets_cons] at h
    rw [perform_cons]
    cases hv : v.writes with
    | true =>
      rw [hv, if_pos rfl, List.mem_cons, not_or] at h
      obtain ⟨hne, hrest⟩ := h
      rw [ih hrest, get?_effect_of_ne (Ne.symm hne)]
    | false =>
      rw [hv, if_neg Bool.false_ne_true] at h
      rw [ih h, Visit.effect_of_not_writes hv]

/-- A visit makes no field that was not there. -/
theorem contains_of_contains_effect {v : Visit} {d : RequestData} {s : Source} {n : String}
    (h : (v.effect d).contains s n = true) : d.contains s n = true := by
  by_cases htarget : v.target = (s, n)
  · obtain ⟨t, name, demand⟩ := v
    obtain ⟨rfl, rfl⟩ := Prod.mk.inj htarget
    rw [RequestData.contains_eq_isSome] at h ⊢
    cases hd : d.get? t name with
    | some given => rfl
    | none =>
      -- Where there is no value, a coercion takes nothing away and a restriction does nothing.
      cases demand with
      | given forced =>
        rw [← hd]
        exact h
      | ofKind c =>
        have hgone : (coerceField c t name d).1 = d.erase t name := by
          rw [coerceField, hd, Option.bind_none]
        have hnone : (d.erase t name).get? t name = none := by
          rw [RequestData.get?_erase, if_pos ⟨rfl, rfl⟩]
        rw [Visit.effect, hgone, hnone] at h
        exact h
      | among as =>
        have hsame : (restrictField name as t d).1 = d := by rw [restrictField, hd]
        rw [Visit.effect, hsame, hd] at h
        exact h
  · rw [RequestData.contains_eq_isSome, get?_effect_of_ne htarget] at h
    exact h

end RequestGuard.Schema
